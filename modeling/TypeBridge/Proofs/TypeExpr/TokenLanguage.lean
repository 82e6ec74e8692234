import TypeBridge.Proofs.TypeExpr.Writing
import TypeBridge.Proofs.Text.Separator

/-!
# Texts that have tokens

A text has tokens just when it can be cut into blanks, identifiers that `@` may precede, alias marks and punctuation.
It does not matter how it is cut: identifiers that touch each other are read as one. Where a text has no tokens, its
longest beginning that has some ends at the offset of the fault.

Results:
* `exists_writes_append`, `exists_pieces`: what texts with tokens are made of.
* `filter_of_writes`: the characters of the tokens are those of the text.
* `exists_place`: where each token stands, and that it goes on as far as it can.
* `writes_spaced`: tokens with one space between each two of them.
* `writes_take_of_scan`, `length_le_of_scan`: the beginnings of a text with a fault.
* `tokens_exact`: all of it.
-/
namespace TypeBridge.TypeExpr

/-- The characters that are tokens of their own. -/
def punctuation : List Char := ['.', '<', '>', ',', '(', ')', '[', ']', '?']

/-- What a text with tokens is made of. -/
inductive IsPiece : List Char → Prop
  | blank {c : Char} : Text.isBlank c = true → IsPiece [c]
  | name {text : String} : IsIdentifier text → IsPiece text.toList
  | verbatim {text : String} : IsIdentifier text → IsPiece ('@' :: text.toList)
  | colons : IsPiece [':', ':']
  | mark {c : Char} : c ∈ punctuation → IsPiece [c]

/-- How a single token can be written. -/
inductive Token.IsWritten : Token → List Char → Prop
  | plain (t : Token) : IsWritten t t.text.toList
  | verbatim (text : String) : IsWritten (.name text) ('@' :: text.toList)

/-- What it means that a token stands at a place of a text with the first of the given tokens before it and the others
behind it, and that it is no identifier which the next character would make longer. -/
structure StandsIn (text : String) (before : List Token) (t : Token) (after : List Token)
    (start written rest : List Char) : Prop where
  text_eq : text.toList = start ++ (written ++ rest)
  isWritten : t.IsWritten written
  before_eq : tokens (.ofList start) = .ok before
  after_eq : tokens (.ofList rest) = .ok after
  complete : ∀ c ∈ rest.head?, ¬ IsIdentifier (t.text.push c)

/-- What it means that the longest beginning of a text that has tokens has so many characters. -/
structure IsLongestBeginning (text : String) (n : Nat) : Prop where
  le : n ≤ text.length
  hasTokens : ∃ ts, tokens (.ofList (text.toList.take n)) = .ok ts
  longest : ∀ m ≤ text.length, (∃ ts, tokens (.ofList (text.toList.take m)) = .ok ts) → m ≤ n

/-! ## Characters of tokens -/

/-- An identifier goes on with more characters of names. -/
theorem isIdentifier_append {text : String} (h : IsIdentifier text) {more : List Char}
    (hmore : ∀ c ∈ more, isNameChar c = true) : IsIdentifier (.ofList (text.toList ++ more)) := by
  obtain ⟨c, r, htext, hc, hr⟩ := h
  refine ⟨c, r ++ more, by rw [String.toList_ofList, htext, List.cons_append], hc, fun d hd => ?_⟩
  exact (List.mem_append.1 hd).elim (hr d) (hmore d)

theorem EndsIdentifier.dropWhile_eq {s : List Char} (h : EndsIdentifier s) : s.dropWhile isNameChar = s := by
  cases s with
  | nil => rfl
  | cons c s => rw [List.dropWhile_cons_of_neg (by simp [h c rfl])]

theorem endsIdentifier_blank {c : Char} (h : Text.isBlank c = true) (s : List Char) : EndsIdentifier (c :: s) := by
  rintro d ⟨⟩
  rw [← Bool.not_eq_true]
  intro hc
  rw [not_isBlank_of_isNameChar hc] at h
  cases h

theorem endsIdentifier_mark {t : Token} (h : ∀ text, t ≠ .name text) (s : List Char) :
    EndsIdentifier (t.text.toList ++ s) := by
  cases t with
  | name text => exact absurd rfl (h text)
  | _ => rintro c ⟨⟩; rfl

/-! ## Token by token -/

theorem tokenAt?_verbatim {c : Char} (hc : isNameStart c = true) (s : List Char) :
    tokenAt? ('@' :: c :: s) =
      some (.name (.ofList (c :: s.takeWhile isNameChar)), (s.takeWhile isNameChar).length + 1) := by
  rw [tokenAt?, if_pos hc]

/-- The ways of writing a single token before a text. -/
inductive WritesToken : Token → List Char → List Char → Prop
  | mark {t : Token} {s : List Char} : (∀ text, t ≠ .name text) → WritesToken t t.text.toList s
  | name {text : String} {s : List Char} : IsIdentifier text → EndsIdentifier s → WritesToken (.name text) text.toList s
  | verbatim {text : String} {s : List Char} :
    IsIdentifier text → EndsIdentifier s → WritesToken (.name text) ('@' :: text.toList) s

theorem Writes.token {t : Token} {w s : List Char} {ts : List Token} (ht : WritesToken t w s) (h : Writes ts s) :
    Writes (t :: ts) (w ++ s) := by
  cases ht with
  | mark hmark => exact .mark hmark h
  | name hid hends => exact .name hid hends h
  | verbatim hid hends => exact .verbatim hid hends h

/-- A text with tokens is empty, or begins with a blank or with a token. -/
theorem Writes.induction {motive : (ts : List Token) → (s : List Char) → Writes ts s → Prop}
    (done : motive [] [] .done)
    (blank : ∀ {c : Char} {ts : List Token} {s : List Char} (hblank : Text.isBlank c = true) (h : Writes ts s),
      motive ts s h → motive ts (c :: s) (.blank hblank h))
    (token : ∀ {t : Token} {w : List Char} {ts : List Token} {s : List Char} (ht : WritesToken t w s)
      (h : Writes ts s), motive ts s h → motive (t :: ts) (w ++ s) (h.token ht))
    {ts : List Token} {s : List Char} (h : Writes ts s) : motive ts s h := by
  induction h with
  | done => exact done
  | blank hblank h ih => exact blank hblank h ih
  | mark hmark h ih => exact token (.mark hmark) h ih
  | name hid hends h ih => exact token (.name hid hends) h ih
  | verbatim hid hends h ih => exact token (.verbatim hid hends) h ih

namespace WritesToken

variable {t : Token} {w s : List Char}

theorem plain (ht : ∀ text, t = .name text → IsIdentifier text) (hends : EndsIdentifier s) :
    WritesToken t t.text.toList s := by
  cases t with
  | name text => exact .name (ht text rfl) hends
  | _ => exact .mark (by simp)

theorem isWritten (h : WritesToken t w s) : t.IsWritten w := by
  cases h with
  | mark => exact .plain t
  | name => exact .plain _
  | verbatim => exact .verbatim _

/-- A token is written in the same way before less of a text. -/
theorem of_append {a b : List Char} (h : WritesToken t w (a ++ b)) : WritesToken t w a := by
  have hends (hends : EndsIdentifier (a ++ b)) : EndsIdentifier a := by
    intro c hc
    refine hends c ?_
    rw [List.head?_append, Option.mem_def.1 hc]
    rfl
  cases h with
  | mark hmark => exact .mark hmark
  | name hid h => exact .name hid (hends h)
  | verbatim hid h => exact .verbatim hid (hends h)

theorem isPiece (h : WritesToken t w s) : IsPiece w := by
  cases h with
  | mark hmark =>
    have htext : t.text.toList = [':', ':'] ∨ ∃ c ∈ punctuation, t.text.toList = [c] := by
      cases t with
      | name text => exact absurd rfl (hmark text)
      | _ => simp [Token.text, punctuation]
    rcases htext with htext | ⟨c, hc, htext⟩
    · rw [htext]
      exact .colons
    · rw [htext]
      exact .mark hc
  | name hid => exact .name hid
  | verbatim hid => exact .verbatim hid

/-- No character of a token is a blank or `@`. -/
theorem filter_eq (h : WritesToken t w s) :
    w.filter (fun c => !Text.isBlank c && c != '@') = t.text.toList := by
  have hname {text : String} (hid : IsIdentifier text) :
      text.toList.filter (fun c => !Text.isBlank c && c != '@') = text.toList := by
    rw [List.filter_eq_self]
    intro c hc
    have hchar := hid.isNameChar_of_mem hc
    have hat : c ≠ '@' := by
      rintro rfl
      cases hchar
    simp [not_isBlank_of_isNameChar hchar, hat]
  cases h with
  | mark hmark =>
    cases t with
    | name text => exact absurd rfl (hmark text)
    | _ => rfl
  | name hid => exact hname hid
  | verbatim hid =>
    rw [List.filter_cons_of_neg (by simp)]
    exact hname hid

/-- An identifier that has ended does not go on with the next character, and no mark begins an identifier. -/
theorem complete (h : WritesToken t w s) : ∀ c ∈ s.head?, ¬ IsIdentifier (t.text.push c) := by
  have hname {text : String} (hid : IsIdentifier text) (hends : EndsIdentifier s) :
      ∀ c ∈ s.head?, ¬ IsIdentifier (text.push c) := by
    intro c hc hpush
    have hchar := hpush.isNameChar_of_mem (c := c) (by rw [String.toList_push]; simp)
    rw [hends c hc] at hchar
    cases hchar
  cases h with
  | mark hmark =>
    rintro c - ⟨d, r, htext, hd, -⟩
    rw [String.toList_push] at htext
    cases t with
    | name text => exact absurd rfl (hmark text)
    | _ =>
      obtain ⟨rfl, -⟩ := List.cons_eq_cons.1 htext
      cases hd
  | name hid hends => exact hname hid hends
  | verbatim hid hends => exact hname hid hends

/-- A token is found where it is written. When the text ends with it, an identifier may go on with what comes behind
the text. -/
theorem exists_tokenAt? (h : WritesToken t w s) (r : List Char) :
    ∃ c w' first more, w = c :: w' ∧ Text.isBlank c = false ∧
      tokenAt? (c :: (w' ++ (s ++ r))) = some (first, w'.length + more) ∧ (s = [] ∨ more = 0) := by
  have hmore (hends : EndsIdentifier s) : s = [] ∨ ((s ++ r).takeWhile isNameChar).length = 0 := by
    cases s with
    | nil => exact .inl rfl
    | cons d s =>
      have hends' : EndsIdentifier (d :: (s ++ r)) := hends
      exact .inr (congrArg List.length hends'.takeWhile_eq)
  cases h with
  | mark hmark =>
    obtain ⟨c, w', htext, hblank, htoken⟩ := tokenAt?_of_mark hmark
    exact ⟨c, w', t, 0, htext, hblank, htoken (s ++ r), .inr rfl⟩
  | name hid hends =>
    obtain ⟨c, w', htext, hc, hw'⟩ := hid
    have htoken := tokenAt?_of_isNameStart hc (w' ++ (s ++ r))
    rw [List.takeWhile_append_of_pos hw', List.length_append] at htoken
    exact ⟨c, w', _, _, htext, not_isBlank_of_isNameChar (isNameChar_of_isNameStart hc), htoken, hmore hends⟩
  | verbatim hid hends =>
    obtain ⟨c, w', htext, hc, hw'⟩ := hid
    have htoken := tokenAt?_verbatim hc (w' ++ (s ++ r))
    rw [List.takeWhile_append_of_pos hw', List.length_append, Nat.add_right_comm] at htoken
    exact ⟨'@', c :: w', _, _, by rw [htext], rfl, htoken, hmore hends⟩

end WritesToken

/-! ## What texts with tokens are made of -/

theorem exists_mark {c : Char} (h : c ∈ punctuation) :
    ∃ t : Token, (∀ text, t ≠ .name text) ∧ t.text.toList = [c] := by
  have hall : punctuation.all (fun d => (mark? d).isSome) = true := by decide
  obtain ⟨t, ht⟩ := Option.isSome_iff_exists.1 (List.all_eq_true.1 hall c h)
  exact ⟨t, text_of_mark? ht⟩

/-- What is left of a text has tokens when it begins in the middle of a name that is skipped. -/
theorem Writes.exists_dropWhile {ts : List Token} {s : List Char} (h : Writes ts s) :
    ∃ rest, Writes rest (s.dropWhile isNameChar) := by
  cases h with
  | done => exact ⟨[], .done⟩
  | blank hblank h =>
    rw [(endsIdentifier_blank hblank _).dropWhile_eq]
    exact ⟨_, .blank hblank h⟩
  | mark hmark h =>
    rw [(endsIdentifier_mark hmark _).dropWhile_eq]
    exact ⟨_, .mark hmark h⟩
  | name hid hends h =>
    rw [List.dropWhile_append_of_pos fun c hc => hid.isNameChar_of_mem hc, hends.dropWhile_eq]
    exact ⟨_, h⟩
  | verbatim hid hends h => exact ⟨_, .verbatim hid hends h⟩

/-- A piece can be put before any text with tokens. An identifier goes on with what it touches. -/
theorem exists_writes_append {piece : List Char} (hpiece : IsPiece piece) {ts : List Token} {s : List Char}
    (h : Writes ts s) : ∃ all, Writes all (piece ++ s) := by
  have hmore : ∀ c ∈ s.takeWhile isNameChar, isNameChar c = true := List.all_eq_true.1 List.all_takeWhile
  have hsplit (text : String) : text.toList ++ s =
      (String.ofList (text.toList ++ s.takeWhile isNameChar)).toList ++ s.dropWhile isNameChar := by
    rw [String.toList_ofList, List.append_assoc, List.takeWhile_append_dropWhile]
  obtain ⟨rest, hrest⟩ := h.exists_dropWhile
  cases hpiece with
  | blank hblank => exact ⟨_, .blank hblank h⟩
  | colons => exact ⟨_, @Writes.mark .alias _ _ (by simp) h⟩
  | mark hc =>
    obtain ⟨t, hmark, htext⟩ := exists_mark hc
    rw [← htext]
    exact ⟨_, .mark hmark h⟩
  | @name text hid =>
    rw [hsplit]
    exact ⟨_, .name (isIdentifier_append hid hmore) (endsIdentifier_dropWhile s) hrest⟩
  | @verbatim text hid =>
    rw [List.cons_append, hsplit]
    exact ⟨_, .verbatim (isIdentifier_append hid hmore) (endsIdentifier_dropWhile s) hrest⟩

theorem exists_writes_flatten {pieces : List (List Char)} (h : ∀ piece ∈ pieces, IsPiece piece) :
    ∃ ts, Writes ts pieces.flatten := by
  induction pieces with
  | nil => exact ⟨[], .done⟩
  | cons piece pieces ih =>
    obtain ⟨hpiece, hpieces⟩ := List.forall_mem_cons.1 h
    obtain ⟨ts, hts⟩ := ih hpieces
    exact exists_writes_append hpiece hts

theorem exists_pieces {ts : List Token} {s : List Char} (h : Writes ts s) :
    ∃ pieces : List (List Char), (∀ piece ∈ pieces, IsPiece piece) ∧ s = pieces.flatten := by
  induction h using Writes.induction with
  | done => exact ⟨[], by simp, rfl⟩
  | blank hblank _ ih =>
    obtain ⟨pieces, hpieces, rfl⟩ := ih
    exact ⟨_ :: pieces, List.forall_mem_cons.2 ⟨.blank hblank, hpieces⟩, rfl⟩
  | token ht _ ih =>
    obtain ⟨pieces, hpieces, rfl⟩ := ih
    exact ⟨_ :: pieces, List.forall_mem_cons.2 ⟨ht.isPiece, hpieces⟩, rfl⟩

/-! ## The characters and places of tokens -/

theorem filter_of_writes {ts : List Token} {s : List Char} (h : Writes ts s) :
    s.filter (fun c => !Text.isBlank c && c != '@') = ts.flatMap (·.text.toList) := by
  induction h using Writes.induction with
  | done => rfl
  | blank hblank _ ih => rw [List.filter_cons_of_neg (by simp [hblank]), ih]
  | token ht _ ih => rw [List.filter_append, ht.filter_eq, ih, List.flatMap_cons]

/-- Every token stands somewhere between those before it and those behind it. -/
theorem exists_place {before after : List Token} {t : Token} {s : List Char}
    (h : Writes (before ++ t :: after) s) : ∃ start written rest, s = start ++ (written ++ rest) ∧
      Writes before start ∧ WritesToken t written rest ∧ Writes after rest := by
  generalize hall : before ++ t :: after = all at h
  induction h using Writes.induction generalizing before with
  | done => simp at hall
  | blank hblank _ ih =>
    obtain ⟨start, written, rest, rfl, hbefore, hrest⟩ := ih hall
    exact ⟨_ :: start, written, rest, rfl, .blank hblank hbefore, hrest⟩
  | token ht hs ih =>
    cases before with
    | nil =>
      obtain ⟨rfl, rfl⟩ := List.cons_eq_cons.1 hall
      exact ⟨[], _, _, rfl, .done, ht, hs⟩
    | cons _ before =>
      obtain ⟨rfl, htail⟩ := List.cons_eq_cons.1 hall
      obtain ⟨start, written, rest, rfl, hbefore, hrest⟩ := ih htail
      exact ⟨_ ++ start, written, rest, (List.append_assoc ..).symm, hbefore.token ht.of_append, hrest⟩

/-! ## Tokens with spaces between them -/

theorem endsIdentifier_flatMap (ts : List Token) : EndsIdentifier (ts.flatMap ([' '] ++ ·.text.toList)) := by
  cases ts with
  | nil => rintro c ⟨⟩
  | cons t ts => exact endsIdentifier_blank rfl _

theorem writes_flatMap {ts : List Token} (h : ∀ text, .name text ∈ ts → IsIdentifier text) :
    Writes ts (ts.flatMap ([' '] ++ ·.text.toList)) := by
  induction ts with
  | nil => exact .done
  | cons t ts ih =>
    have hrest := ih fun text htext => h text (List.mem_cons_of_mem _ htext)
    have htoken := WritesToken.plain (fun text heq => h text (heq ▸ List.mem_cons_self)) (endsIdentifier_flatMap ts)
    exact .blank rfl (hrest.token htoken)

theorem writes_spaced {ts : List Token} (h : ∀ text, .name text ∈ ts → IsIdentifier text) :
    Writes ts ([' '].intercalate (ts.map (·.text.toList))) := by
  cases ts with
  | nil => exact .done
  | cons t ts =>
    have hrest := writes_flatMap fun text htext => h text (List.mem_cons_of_mem t htext)
    have htoken := WritesToken.plain (fun text heq => h text (heq ▸ List.mem_cons_self)) (endsIdentifier_flatMap ts)
    rw [List.map_cons, intercalate_cons, List.flatMap_map]
    exact hrest.token htoken

/-! ## The beginnings of a text with a fault -/

/-- The token at the beginning of a text stays the same when the text is cut off behind it. -/
theorem tokenAt?_take {c : Char} {r : List Char} {t : Token} {taken n : Nat}
    (h : tokenAt? (c :: r) = some (t, taken)) (hn : taken ≤ n) : tokenAt? (c :: r.take n) = some (t, taken) := by
  have htake {s : List Char} {m : Nat} (hm : (s.takeWhile isNameChar).length ≤ m) :
      (s.take m).takeWhile isNameChar = s.takeWhile isNameChar := by
    rw [← List.take_takeWhile, List.take_of_length_le hm]
  cases beginsToken_of_tokenAt? h with
  | verbatim r hd =>
    obtain ⟨n, rfl⟩ := Nat.exists_eq_add_one.2 (Nat.lt_of_lt_of_le (Nat.zero_lt_succ _) hn)
    rw [List.take_succ_cons, tokenAt?_verbatim hd, htake (Nat.le_of_succ_le_succ hn)]
  | colons r =>
    obtain ⟨n, rfl⟩ := Nat.exists_eq_add_one.2 hn
    rfl
  | name r hd => rw [tokenAt?_of_isNameStart hd, htake hn]
  | mark r hmark =>
    obtain ⟨hne, htext⟩ := text_of_mark? hmark
    obtain ⟨d, w, htext', -, htoken⟩ := tokenAt?_of_mark hne
    obtain ⟨rfl, rfl⟩ := List.cons_eq_cons.1 (htext.symm.trans htext')
    exact htoken (r.take n)

/-- What comes before a fault has tokens. -/
theorem writes_take_of_scan {taken offset : Nat} {s : List Char} {fault : BadCharacter}
    (h : scan taken offset s = .error fault) :
    ∃ n ts, fault.offset = offset + taken + n ∧ Writes ts ((s.drop taken).take n) := by
  fun_induction scan taken offset s with
  | case1 => cases h
  | case2 taken offset c r ih =>
    obtain ⟨n, ts, hoffset, hts⟩ := ih h
    exact ⟨n, ts, by omega, hts⟩
  | case3 offset c r hblank ih =>
    obtain ⟨n, ts, hoffset, hts⟩ := ih h
    exact ⟨n + 1, ts, by omega, .blank hblank hts⟩
  | case4 offset c r =>
    cases h
    exact ⟨0, [], rfl, .done⟩
  | case5 offset c r _ t taken htoken fault' hfault ih =>
    cases h
    obtain ⟨n, ts, hoffset, hts⟩ := ih hfault
    refine ⟨taken + n + 1, t :: ts, by omega, ?_⟩
    rw [List.drop_zero, List.take_succ_cons]
    refine writes_of_tokenAt? (tokenAt?_take htoken (Nat.le_add_right _ _)) ?_
    rwa [List.drop_take, Nat.add_sub_cancel_left]
  | case6 => cases h

/-- What has tokens does not reach beyond a fault. -/
theorem length_le_of_scan {ts : List Token} {s : List Char} (h : Writes ts s) {offset : Nat} {r : List Char}
    {fault : BadCharacter} (hfault : scan 0 offset (s ++ r) = .error fault) : offset + s.length ≤ fault.offset := by
  induction h using Writes.induction generalizing offset with
  | done => exact (scan_error_lt hfault).1
  | blank hblank _ ih =>
    rw [List.cons_append, scan, if_pos hblank] at hfault
    have hle := ih hfault
    rw [List.length_cons]
    omega
  | token ht _ ih =>
    obtain ⟨c, w, first, more, rfl, hblank, htoken, hmore⟩ := ht.exists_tokenAt? r
    rw [List.append_assoc, List.cons_append, scan, if_neg (by simp [hblank]), htoken] at hfault
    simp only at hfault
    split at hfault
    · rename_i hrest
      cases hfault
      rw [List.cons_append, List.length_cons, List.length_append]
      rw [scan_eq_drop] at hrest
      -- either the identifier ends the text, or it ends where it does in the text
      rcases hmore with rfl | rfl
      · have hle := (scan_error_lt hrest).1
        rw [List.length_nil]
        omega
      · simp only [Nat.add_zero, List.drop_left] at hrest
        have hle := ih hrest
        omega
    · cases hfault

theorem isLongestBeginning_of_fault {text : String} {fault : BadCharacter} (h : tokens text = .error fault) :
    IsLongestBeginning text fault.offset := by
  have hlt := (scan_error_lt h).2
  refine ⟨?_, ?_, fun m _ htokens => ?_⟩
  · rw [← String.length_toList]
    omega
  · obtain ⟨n, ts, hoffset, hts⟩ := writes_take_of_scan h
    obtain rfl : fault.offset = n := by omega
    refine ⟨ts, tokens_eq_ok_iff.2 ?_⟩
    rwa [String.toList_ofList]
  · obtain ⟨ts, hts⟩ := htokens
    have hwrites := tokens_eq_ok_iff.1 hts
    rw [String.toList_ofList] at hwrites
    have hle := @length_le_of_scan _ _ hwrites 0 (text.toList.drop m) fault (by rwa [List.take_append_drop])
    rw [List.length_take, String.length_toList] at hle
    omega

/-! ## All texts -/

/-- A text has tokens just when it is made of pieces. Its tokens have all of its characters but blanks and `@`, each one
stands in it and goes on as far as it can, and they are the tokens of what they are with single spaces between them. A
text that has no tokens has a fault behind its longest beginning that has some. -/
theorem tokens_exact (text : String) :
    ((∃ ts, tokens text = .ok ts) ↔
      ∃ pieces : List (List Char), (∀ piece ∈ pieces, IsPiece piece) ∧ text.toList = pieces.flatten) ∧
    (∀ ts, tokens text = .ok ts →
      ts.flatMap (·.text.toList) = text.toList.filter (fun c => !Text.isBlank c && c != '@') ∧
      (∀ before t after, ts = before ++ t :: after → ∃ start written rest,
        StandsIn text before t after start written rest) ∧
      tokens (" ".intercalate (ts.map (·.text))) = .ok ts) ∧
    ∀ fault, tokens text = .error fault → IsLongestBeginning text fault.offset := by
  refine ⟨⟨?_, ?_⟩, fun ts hts => ⟨?_, ?_, ?_⟩, fun fault => isLongestBeginning_of_fault⟩
  · rintro ⟨ts, hts⟩
    exact exists_pieces (tokens_eq_ok_iff.1 hts)
  · rintro ⟨pieces, hpieces, htext⟩
    obtain ⟨ts, hts⟩ := exists_writes_flatten hpieces
    exact ⟨ts, tokens_eq_ok_iff.2 (htext ▸ hts)⟩
  · exact (filter_of_writes (tokens_eq_ok_iff.1 hts)).symm
  · rintro before t after rfl
    obtain ⟨start, written, rest, htext, hbefore, ht, hafter⟩ := exists_place (tokens_eq_ok_iff.1 hts)
    refine ⟨start, written, rest, htext, ht.isWritten, tokens_eq_ok_iff.2 ?_, tokens_eq_ok_iff.2 ?_, ht.complete⟩
    · rwa [String.toList_ofList]
    · rwa [String.toList_ofList]
  · have hspaced := writes_spaced fun _ hmem => isIdentifier_of_mem_tokens hts hmem
    rw [tokens_eq_ok_iff, String.toList_intercalate, List.map_map]
    exact hspaced

/-- Names behind other tokens and behind `@`, and a single colon behind two others; `a :` has no tokens, but `a ::`
has. -/
theorem tokens_exact_colons :
    let text := "global::@List\u2003<@int>"
    let ts : List Token := [.name "global", .alias, .name "List", .less, .name "int", .greater]
    tokens text = .ok ts ∧ tokens "global :: List < int >" = .ok ts ∧
      (∃ start written rest, StandsIn text (ts.take 2) (.name "List") (ts.drop 3) start written rest) ∧
      tokens "a :::b" = .error ⟨':', 4⟩ ∧ IsLongestBeginning "a :::b" 4 := by
  intro text ts
  obtain ⟨-, hok, -⟩ := tokens_exact text
  have htokens : tokens text = .ok ts := by decide +kernel
  obtain ⟨-, hplace, hspaced⟩ := hok ts htokens
  have hjoin : " ".intercalate (ts.map (·.text)) = "global :: List < int >" := by decide +kernel
  have hfault : tokens "a :::b" = .error ⟨':', 4⟩ := by decide +kernel
  exact ⟨htokens, hjoin ▸ hspaced, hplace _ _ _ rfl, hfault, (tokens_exact _).2.2 _ hfault⟩

end TypeBridge.TypeExpr
