import TypeBridge.Proofs.Source.Lead

/-!
# String literals

A regular literal and a verbatim one end at the first quote that their text does not write: after a backslash, or twice.
So of a token that begins and ends as such a literal does, the text between the quotes is that of one literal, but for
the raw literals, which begin with three quotes.

Results:
* `escapeLength?_spec`: what stands after a backslash.
* `extends_regular`, `extends_verbatim`, `exists_of_scan`: one step in the text of a literal, and where it ends.
* `Token.isPlain_of_isQuoted`: tokens between quotes.
* `Token.beginsInText_of_mem`, `Token.endsInText_of_mem`: no token begins or ends with a blank.
-/
namespace TypeBridge.Source

namespace Literal

/-! ## Texts of literals -/

/-- What can stand between the quotes of a regular literal: a quote only after a backslash, and no line feed. -/
inductive IsRegularText : List Char → Prop
  | nil : IsRegularText []
  | char {c : Char} {s : List Char} : c ≠ '"' → c ≠ '\\' → c ≠ '\n' → IsRegularText s → IsRegularText (c :: s)
  | escape {c : Char} {s : List Char} : c ≠ '\n' → IsRegularText s → IsRegularText ('\\' :: c :: s)

/-- What can stand between the quotes of a verbatim literal: a quote only twice. -/
inductive IsVerbatimText : List Char → Prop
  | nil : IsVerbatimText []
  | char {c : Char} {s : List Char} : c ≠ '"' → IsVerbatimText s → IsVerbatimText (c :: s)
  | quote {s : List Char} : IsVerbatimText s → IsVerbatimText ('"' :: '"' :: s)

/-- How a regular or a verbatim literal is written that has some text between its quotes. -/
inductive IsPlain : List Char → List Char → Prop
  | regular {inner : List Char} : IsRegularText inner → IsPlain ('"' :: (inner ++ ['"'])) inner
  | verbatim {inner : List Char} : IsVerbatimText inner → IsPlain ('@' :: '"' :: (inner ++ ['"'])) inner

/-- What raw literals begin with. -/
def IsRaw (s : List Char) : Prop := ['"', '"', '"'] <+: s

/-- What it means that a text begins with a quote, or with `@` and a quote, and ends with another quote. -/
inductive IsQuoted : List Char → Prop
  | regular (inner : List Char) : IsQuoted ('"' :: (inner ++ ['"']))
  | verbatim (inner : List Char) : IsQuoted ('@' :: '"' :: (inner ++ ['"']))

namespace IsQuoted

variable {s : List Char}

theorem opening (h : IsQuoted s) : ['"'] <+: s ∨ ['@', '"'] <+: s := by
  cases h with
  | regular inner => exact .inl ⟨inner ++ ['"'], rfl⟩
  | verbatim inner => exact .inr ⟨inner ++ ['"'], rfl⟩

theorem getLast? (h : IsQuoted s) : s.getLast? = some '"' := by
  cases h with
  | regular inner => rw [← List.cons_append, List.getLast?_concat]
  | verbatim inner => rw [← List.cons_append, ← List.cons_append, List.getLast?_concat]

theorem two_le_length (h : IsQuoted s) : 2 ≤ s.length := by
  cases h <;> simp

end IsQuoted

theorem IsPlain.not_isRaw {s inner : List Char} (h : IsPlain s inner) : ¬ IsRaw s := by
  rintro ⟨rest, hraw⟩
  cases h with
  | @regular inner hinner =>
    obtain ⟨-, hraw⟩ := List.cons.inj hraw
    cases hinner with
    | nil => cases hraw
    | char hquote => exact hquote (List.cons.inj hraw).1.symm
    | escape => exact absurd (List.cons.inj hraw).1 (by decide)
  | verbatim => exact absurd (List.cons.inj hraw).1 (by decide)

theorem IsRegularText.append {s t : List Char} (ht : IsRegularText t)
    (hs : ∀ c ∈ s, c ≠ '"' ∧ c ≠ '\\' ∧ c ≠ '\n') : IsRegularText (s ++ t) := by
  induction s with
  | nil => exact ht
  | cons c s ih =>
    obtain ⟨⟨hquote, hslash, hfeed⟩, hs⟩ := List.forall_mem_cons.1 hs
    exact .char hquote hslash hfeed (ih hs)

/-! ## Escapes -/

theorem isHexDigit_ne {c : Char} (h : isHexDigit c = true) : c ≠ '"' ∧ c ≠ '\\' ∧ c ≠ '\n' := by
  refine ⟨?_, ?_, ?_⟩ <;>
    · rintro rfl
      revert h
      decide

/-- After a backslash stands one character, and perhaps digits. -/
theorem escapeLength?_spec {s : List Char} {n : Nat} (h : escapeLength? s = some n) :
    ∃ c digits rest, s = c :: (digits ++ rest) ∧ n = digits.length + 1 ∧ c ≠ '\n' ∧
      ∀ d ∈ digits, d ≠ '"' ∧ d ≠ '\\' ∧ d ≠ '\n' := by
  have hdigits {r : List Char} {count : Nat} (hcount : count ≤ (r.takeWhile isHexDigit).length) :
      (r.take count).length = count ∧ ∀ d ∈ r.take count, d ≠ '"' ∧ d ≠ '\\' ∧ d ≠ '\n' := by
    refine ⟨?_, fun d hd => isHexDigit_ne (Lexeme.all_of_mem_take hcount d hd)⟩
    rw [List.length_take]
    exact min_eq_left (hcount.trans (List.takeWhile_prefix _).length_le)
  unfold escapeLength? at h
  split at h
  · rename_i r
    dsimp only at h
    split at h
    · cases h
    · obtain rfl := Option.some.inj h
      obtain ⟨hlength, hmem⟩ := hdigits (Nat.min_le_right 4 (r.takeWhile isHexDigit).length)
      exact ⟨'x', _, _, by rw [List.take_append_drop], by rw [hlength, Nat.add_comm], by decide, hmem⟩
  · rename_i r
    split at h
    · rename_i hcount
      obtain rfl := Option.some.inj h
      obtain ⟨hlength, hmem⟩ := hdigits hcount
      exact ⟨'u', _, _, by rw [List.take_append_drop], by rw [hlength], by decide, hmem⟩
    · cases h
  · rename_i r
    split at h
    · rename_i hcount
      obtain rfl := Option.some.inj h
      obtain ⟨hlength, hmem⟩ := hdigits hcount
      exact ⟨'U', _, _, by rw [List.take_append_drop], by rw [hlength], by decide, hmem⟩
    · cases h
  · rename_i c r _ _ _
    split at h
    · rename_i hc
      obtain rfl := Option.some.inj h
      refine ⟨c, [], r, rfl, rfl, ?_, List.forall_mem_nil _⟩
      rintro rfl
      revert hc
      decide
    · cases h
  · cases h

/-! ## Where a literal ends -/

/-- What is taken already is passed over. -/
theorem scan_drop {parts : List Part} {taken n : Nat} {s : List Char} (h : scan parts taken s = some n) :
    ∃ m, n = taken + m ∧ scan parts 0 (s.drop taken) = some m := by
  induction taken generalizing s n with
  | zero => exact ⟨n, (Nat.zero_add n).symm, h⟩
  | succ taken ih =>
    cases s with
    | nil =>
      obtain ⟨hzero, -, -⟩ := scan_end h
      cases hzero
    | cons c r =>
      obtain ⟨m, hm, rfl⟩ := Option.map_eq_some_iff.1 h
      obtain ⟨k, rfl, hk⟩ := ih hm
      exact ⟨k, by omega, hk⟩

/-- How regular literals are written. -/
def regular : Style := { escape := .backslash }

/-- How verbatim literals are written. -/
def verbatim : Style := { escape := .doubled }

theorem step_regular (c : Char) (r : List Char) : regular.step (c :: r) =
    if c = '"' then some ([], 1)
    else if c = '\\' then (escapeLength? r).bind fun length => some ([.text regular], length + 1)
    else if c = '\n' then none
    else some ([.text regular], 1) := by
  by_cases hquote : c = '"'
  · subst hquote
    simp [Style.step, regular, run]
  · have hrun : run '"' (c :: r) = 0 := by simp [run, hquote]
    rw [if_neg hquote]
    simp only [Style.step, regular, hrun]
    split
    · rename_i hclosed
      exact absurd hclosed.1 (by decide)
    · split
      · rename_i heq
        obtain ⟨rfl, rfl⟩ := List.cons.inj heq
        rfl
      · rename_i heq
        obtain ⟨rfl, rfl⟩ := List.cons.inj heq
        rfl
      · rename_i hescape _
        cases hescape
      · rename_i hescape _
        cases hescape
      · rename_i heq
        obtain ⟨rfl, rfl⟩ := List.cons.inj heq
        rfl
      · rename_i hslash hfeed _ _
        rw [if_neg fun hc => hslash r rfl (by rw [hc]), if_neg fun hc => hfeed r rfl (by rw [hc])]

theorem step_verbatim (c : Char) (r : List Char) : verbatim.step (c :: r) =
    if c = '"' then if r.head? = some '"' then some ([.text verbatim], 2) else some ([], 1)
    else some ([.text verbatim], 1) := by
  simp only [Style.step, verbatim]
  rw [if_neg (by simp)]
  split
  · rename_i hescape _
    cases hescape
  · rename_i hescape _
    cases hescape
  · rename_i heq
    obtain ⟨rfl, rfl⟩ := List.cons.inj heq
    rfl
  · rename_i hdouble _ heq
    obtain ⟨rfl, rfl⟩ := List.cons.inj heq
    rw [if_pos rfl, if_neg]
    rintro hhead
    obtain ⟨t, rfl⟩ := List.head?_eq_some_iff.1 hhead
    exact hdouble t rfl
  · rename_i heq
    obtain ⟨rfl, rfl⟩ := List.cons.inj heq
    rfl
  · rename_i hquote
    rw [if_neg fun hc => hquote r rfl (by rw [hc])]

/-- What it means that each step in the text of a literal ends the literal at a quote, or takes characters that can
stand before every text with a given property. -/
def Style.Extends (style : Style) (p : List Char → Prop) : Prop :=
  ∀ c r continued count, style.step (c :: r) = some (continued, count) →
    (continued = [] ∧ count = 1 ∧ c = '"') ∨
      continued = [.text style] ∧ ∃ first rest, r = first ++ rest ∧ count = first.length + 1 ∧
        ∀ inner, p inner → p (c :: (first ++ inner))

/-- Then the text of the literal has the property, and the literal ends at the quote after it. -/
theorem exists_of_scan {style : Style} {p : List Char → Prop} (hnil : p []) (hstyle : style.Extends p) {s : List Char}
    {n : Nat} (h : scan [.text style] 0 s = some n) : ∃ inner, s.take n = inner ++ ['"'] ∧ p inner := by
  -- A step can take several characters, so the induction is on the length of what is left.
  induction hlength : s.length using Nat.strongRecOn generalizing s n with
  | ind length ih =>
    subst hlength
    cases s with
    | nil => cases h
    | cons c r =>
      obtain ⟨continued, count, m, hstep, hm, rfl⟩ := exists_step_of_scan h
      rcases hstyle c r continued count hstep with ⟨rfl, rfl, rfl⟩ | ⟨rfl, first, rest, rfl, rfl, hfirst⟩
      · obtain rfl := scan_nil hm
        exact ⟨[], rfl, hnil⟩
      · obtain ⟨k, rfl, hk⟩ := scan_drop hm
        rw [Nat.add_sub_cancel, List.drop_left] at hk
        have hshorter : rest.length < (c :: (first ++ rest)).length := by
          rw [List.length_cons, List.length_append]
          omega
        obtain ⟨inner, hinner, hp⟩ := ih rest.length hshorter hk rfl
        refine ⟨c :: (first ++ inner), ?_, hfirst inner hp⟩
        rw [Nat.add_sub_cancel, List.take_succ_cons, List.take_length_add_append, hinner, ← List.append_assoc]
        rfl

/-- A regular literal goes on to the first quote without a backslash before it. -/
theorem extends_regular : regular.Extends IsRegularText := by
  intro c r continued count h
  rw [step_regular] at h
  by_cases hquote : c = '"'
  · rw [if_pos hquote] at h
    obtain ⟨rfl, rfl⟩ := Prod.mk.inj (Option.some.inj h)
    exact .inl ⟨rfl, rfl, hquote⟩
  · rw [if_neg hquote] at h
    refine .inr ?_
    by_cases hslash : c = '\\'
    · rw [if_pos hslash] at h
      obtain ⟨length, hescape, heq⟩ := Option.bind_eq_some_iff.1 h
      obtain ⟨rfl, rfl⟩ := Prod.mk.inj (Option.some.inj heq)
      obtain ⟨d, digits, rest, rfl, rfl, hd, hdigits⟩ := escapeLength?_spec hescape
      refine ⟨rfl, d :: digits, rest, rfl, rfl, fun inner hinner => ?_⟩
      rw [hslash]
      exact .escape hd (hinner.append hdigits)
    · rw [if_neg hslash] at h
      by_cases hfeed : c = '\n'
      · rw [if_pos hfeed] at h
        cases h
      · rw [if_neg hfeed] at h
        obtain ⟨rfl, rfl⟩ := Prod.mk.inj (Option.some.inj h)
        exact ⟨rfl, [], r, rfl, rfl, fun inner hinner => .char hquote hslash hfeed hinner⟩

/-- A verbatim literal goes on to the first quote that is not followed by another one, two by two. -/
theorem extends_verbatim : verbatim.Extends IsVerbatimText := by
  intro c r continued count h
  rw [step_verbatim] at h
  by_cases hquote : c = '"'
  · rw [if_pos hquote] at h
    by_cases hnext : r.head? = some '"'
    · rw [if_pos hnext] at h
      obtain ⟨rest, rfl⟩ := List.head?_eq_some_iff.1 hnext
      obtain ⟨rfl, rfl⟩ := Prod.mk.inj (Option.some.inj h)
      refine .inr ⟨rfl, ['"'], rest, rfl, rfl, fun inner hinner => ?_⟩
      rw [hquote]
      exact .quote hinner
    · rw [if_neg hnext] at h
      obtain ⟨rfl, rfl⟩ := Prod.mk.inj (Option.some.inj h)
      exact .inl ⟨rfl, rfl, hquote⟩
  · rw [if_neg hquote] at h
    obtain ⟨rfl, rfl⟩ := Prod.mk.inj (Option.some.inj h)
    exact .inr ⟨rfl, [], r, rfl, rfl, fun inner hinner => .char hquote hinner⟩

theorem opening?_quote (r : List Char) : opening? ('"' :: r) =
    if 2 ≤ run '"' r then some ({ quotes := run '"' r + 1, escape := .none }, run '"' r + 1)
    else some (regular, 1) := by
  have hrun : run '"' ('"' :: r) = run '"' r + 1 := by simp [run]
  have hnone : run '$' ('"' :: r) = 0 := by simp [run]
  unfold opening?
  split
  · rename_i heq
    exact absurd (List.cons.inj heq).1 (by decide)
  · rename_i heq
    exact absurd (List.cons.inj heq).1 (by decide)
  · rename_i heq
    exact absurd (List.cons.inj heq).1 (by decide)
  · rename_i heq
    exact absurd (List.cons.inj heq).1 (by decide)
  · simp only [hnone, List.drop_zero, hrun, regular]
    by_cases h : 2 ≤ run '"' r
    · rw [if_pos (by omega), if_pos h, Nat.zero_add]
    · rw [if_neg (by omega), if_pos (by omega), if_neg h]

theorem isRaw_of_run {r : List Char} (h : 2 ≤ run '"' r) {n : Nat} (hn : 3 ≤ n) : IsRaw (('"' :: r).take n) := by
  have hquotes := eq_of_mem_take_run h
  have hlength : 2 ≤ r.length := h.trans (List.takeWhile_prefix _).length_le
  match r, hlength with
  | c :: d :: r, _ =>
    obtain rfl : c = '"' := hquotes c (by simp)
    obtain rfl : d = '"' := hquotes d (by simp)
    refine List.prefix_of_prefix_length_le (List.prefix_append ['"', '"', '"'] r) (List.take_prefix n _) ?_
    rw [List.length_take]
    simp
    omega

/-- A literal that begins with a quote, or with `@` and a quote, is regular or verbatim, or it is raw. -/
theorem isPlain_of_length? {s : List Char} {n : Nat} (h : length? s = some n)
    (hopening : ['"'] <+: s ∨ ['@', '"'] <+: s) : (∃ inner, IsPlain (s.take n) inner) ∨ IsRaw (s.take n) := by
  rcases hopening with ⟨r, rfl⟩ | ⟨r, rfl⟩
  · rw [List.singleton_append] at h ⊢
    by_cases hraw : 2 ≤ run '"' r
    · rw [length?, opening?_quote, if_pos hraw] at h
      obtain ⟨m, rfl, -⟩ := scan_drop h
      exact .inr (isRaw_of_run hraw (by omega))
    · rw [length?, opening?_quote, if_neg hraw] at h
      obtain ⟨m, rfl, hm⟩ := scan_drop h
      obtain ⟨inner, hinner, htext⟩ := exists_of_scan .nil extends_regular hm
      refine .inl ⟨inner, ?_⟩
      rw [Nat.add_comm, List.take_succ_cons]
      rw [List.drop_one, List.tail_cons] at hinner
      rw [hinner]
      exact .regular htext
  · obtain ⟨m, rfl, hm⟩ := scan_drop (show scan [.text verbatim] 2 (['@', '"'] ++ r) = some n from h)
    obtain ⟨inner, hinner, htext⟩ := exists_of_scan .nil extends_verbatim hm
    refine .inl ⟨inner, ?_⟩
    have htake : (['@', '"'] ++ r).take (2 + m) = '@' :: '"' :: (inner ++ ['"']) := by
      rw [Nat.add_comm]
      exact congrArg (fun t => '@' :: '"' :: t) hinner
    rw [htake]
    exact .verbatim htext

theorem not_isBlank_of_opening? {c : Char} {r : List Char} {opening : Style × Nat}
    (h : opening? (c :: r) = some opening) : Text.isBlank c = false := by
  by_cases hc : c = '"' ∨ c = '$' ∨ c = '@' ∨ c = '\''
  · rcases hc with rfl | rfl | rfl | rfl <;> decide
  · simp only [not_or] at hc
    obtain ⟨hquote, hdollar, hat, happostrophe⟩ := hc
    have hrun {d : Char} (hd : c ≠ d) : run d (c :: r) = 0 := by simp [run, hd]
    unfold opening? at h
    split at h
    · rename_i heq
      exact absurd (List.cons.inj heq).1 happostrophe
    · rename_i heq
      exact absurd (List.cons.inj heq).1 hat
    · rename_i heq
      exact absurd (List.cons.inj heq).1 hat
    · rename_i heq
      exact absurd (List.cons.inj heq).1 hdollar
    · simp [hrun hdollar, hrun hquote] at h

end Literal

/-! ## Tokens -/

namespace Lexeme

open Literal

theorem not_isBlank_of_token {c : Char} {r : List Char} {kind : Token.Kind} {length : Nat}
    (h : piece? (c :: r) = some (.token kind, length)) : Text.isBlank c = false := by
  have hmark {n : Nat} (h : 0 < n ∧ NoBlank (c :: r) n) : Text.isBlank c = false := by
    obtain ⟨n, rfl⟩ := Nat.exists_eq_succ_of_ne_zero h.1.ne'
    exact h.2 c (by rw [List.take_succ_cons]; exact List.mem_cons_self)
  rcases piece?_eq_some h with ⟨-, hkind, -⟩ | ⟨rfl, -⟩ | ⟨hkind, -⟩ | hliteral | ⟨-, hword⟩ | ⟨-, hnumber⟩ |
    ⟨-, hlength⟩
  · cases hkind
  · decide
  · cases hkind
  · rcases literal?_eq_some hliteral with ⟨hhead, -⟩ | ⟨-, n, hn, -⟩
    · obtain rfl := Option.some.inj hhead
      decide
    · cases hopening : opening? (c :: r) with
      | none => simp [length?, hopening] at hn
      | some opening => exact not_isBlank_of_opening? hopening
  · exact not_isBlank_of_isWordText (isWordText_of_wordLength? hword) c List.mem_cons_self
  · exact hmark (noBlank_numberLength? hnumber)
  · exact hmark (noBlank_markLength? hlength)

theorem piece?_eq_literal? {s : List Char} (h : ['"'] <+: s ∨ ['@', '"'] <+: s) : piece? s = literal? s := by
  rcases h with ⟨r, rfl⟩ | ⟨r, rfl⟩
  · have hopening : (opening? ('"' :: r)).isSome = true := by
      rw [opening?_quote]
      split <;> rfl
    exact if_pos hopening
  · rfl

/-- A token that begins and ends as a literal does is one, or it is raw. -/
theorem isPlain_of_token {c : Char} {r : List Char} {kind : Token.Kind} {length : Nat}
    (h : piece? (c :: r) = some (.token kind, length)) (hquoted : IsQuoted (c :: r.take (length - 1))) :
    (∃ inner, IsPlain (c :: r.take (length - 1)) inner) ∨ IsRaw (c :: r.take (length - 1)) := by
  have hlong := hquoted.two_le_length
  rw [List.length_cons, List.length_take] at hlong
  have htake : c :: r.take (length - 1) = (c :: r).take length := by
    obtain ⟨n, rfl⟩ : ∃ n, length = n + 1 := ⟨length - 1, by omega⟩
    rfl
  rw [htake] at hquoted ⊢
  have hopening : ['"'] <+: c :: r ∨ ['@', '"'] <+: c :: r :=
    hquoted.opening.imp (·.trans (List.take_prefix _ _)) (·.trans (List.take_prefix _ _))
  have hhead : (c :: r).head? ≠ some '\'' := by
    rcases hopening with ⟨t, ht⟩ | ⟨t, ht⟩ <;> simp [← ht]
  rw [piece?_eq_literal? hopening] at h
  rcases literal?_eq_some h with ⟨hquote, -⟩ | ⟨-, n, hn, rfl | ⟨rfl, u, t, hsuffix⟩⟩
  · exact absurd hquote hhead
  · exact isPlain_of_length? hn hopening
  · -- The suffix of a literal of bytes is no quote.
    have hlast := hquoted.getLast?
    rw [List.take_add, hsuffix] at hlast
    simp at hlast

end Lexeme

namespace Token

variable {source : List Char} {tokens : List Token} {token : Token}

theorem exists_piece_of_mem (h : ofSource? source = some tokens) (hmem : token ∈ tokens) :
    ∃ c r length, Lexeme.piece? (c :: r) = some (.token token.kind, length) ∧
      token.text.toList = c :: r.take (length - 1) := by
  obtain ⟨before, after, rfl⟩ := List.append_of_mem hmem
  obtain ⟨ls, hls, htokens⟩ := Option.map_eq_some_iff.1 h
  obtain ⟨first, pieces, lexeme, rest, rfl, hstands, -⟩ := exists_of_ofLexemes_eq htokens
  obtain ⟨c, r, length, hpiece, htext⟩ := Lexeme.exists_piece_of_mem hls lexeme (by simp)
  exact ⟨c, r, length, hstands.kind ▸ hpiece, hstands.text ▸ htext⟩

theorem beginsInText_of_mem (h : ofSource? source = some tokens) (hmem : token ∈ tokens) :
    ∃ c r, token.text.toList = c :: r ∧ Text.isBlank c = false := by
  obtain ⟨c, r, length, hpiece, htext⟩ := exists_piece_of_mem h hmem
  exact ⟨c, _, htext, Lexeme.not_isBlank_of_token hpiece⟩

theorem endsInText_of_mem (h : ofSource? source = some tokens) (hmem : token ∈ tokens)
    (houtside : Tree.IsOutside token) : EndsInText token.text.toList := by
  obtain ⟨c, r, length, hpiece, htext⟩ := exists_piece_of_mem h hmem
  rw [htext]
  exact Lexeme.endsInText_of_token hpiece houtside.if_ne houtside.elif_ne

/-- A token that begins and ends as a literal does is one, or it is raw. -/
theorem isPlain_of_isQuoted (h : ofSource? source = some tokens) (hmem : token ∈ tokens)
    (hquoted : Literal.IsQuoted token.text.toList) :
    (∃ inner, Literal.IsPlain token.text.toList inner) ∨ Literal.IsRaw token.text.toList := by
  obtain ⟨c, r, length, hpiece, htext⟩ := exists_piece_of_mem h hmem
  rw [htext] at hquoted ⊢
  exact Lexeme.isPlain_of_token hpiece hquoted

end Token

end TypeBridge.Source
