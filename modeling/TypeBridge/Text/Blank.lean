/-!
# Blanks

Which characters are blank, and the operations on text that depend on it: trimming, and dividing into
words. Text is a list of characters throughout.

* `not_isBlank_of_isAlphanum`: letters and digits are not blank.
* `trimEnd_cons_of_not_isBlank`: what is not blank stays.
* `splitOn_eq_splitOnP`: texts are divided as lists are.
* `not_mem_of_mem_splitOn`: no piece holds a character at which a text is divided.
* `splitFirst_eq_some`: where a text is divided at a character.
-/
namespace TypeBridge.Text

/-- The characters that are blank: the control characters that move the cursor or separate records,
the next-line control, and every space and separator of Unicode. -/
def isBlank (c : Char) : Bool :=
  let n := c.toNat
  (9 ≤ n && n ≤ 13) || (28 ≤ n && n ≤ 32) || n == 0x85 || n == 0xA0 || n == 0x1680 ||
    (0x2000 ≤ n && n ≤ 0x200A) || n == 0x2028 || n == 0x2029 || n == 0x202F || n == 0x205F ||
    n == 0x3000

theorem not_isBlank_of_isAlphanum {c : Char} (h : c.isAlphanum = true) : isBlank c = false := by
  change ((decide (65 ≤ c.toNat ∧ c.toNat ≤ 90) || (decide (97 ≤ c.toNat) && decide (c.toNat ≤ 122))) ||
    (decide (48 ≤ c.toNat) && decide (c.toNat ≤ 57))) = true at h
  simp only [Bool.or_eq_true, Bool.and_eq_true, decide_eq_true_eq] at h
  simp only [isBlank, Bool.or_eq_false_iff, Bool.and_eq_false_iff, decide_eq_false_iff_not,
    beq_eq_false_iff_ne]
  omega

/-- Whether a text has no character but blanks. -/
def isBlankText (s : List Char) : Bool := s.all isBlank

/-! ## Trimming -/

/-- The text without its leading blanks. -/
def trimStart (s : List Char) : List Char := s.dropWhile isBlank

/-- The text without its trailing blanks. -/
def trimEnd (s : List Char) : List Char := (s.reverse.dropWhile isBlank).reverse

/-- The text without its leading and trailing blanks. -/
def trim (s : List Char) : List Char := trimEnd (trimStart s)

theorem trimEnd_cons_of_not_isBlank {c : Char} (h : isBlank c = false) (s : List Char) :
    trimEnd (c :: s) = c :: trimEnd s := by
  rw [trimEnd, trimEnd, List.reverse_cons, List.dropWhile_append]
  split
  · rename_i hempty
    simp [List.isEmpty_iff.1 hempty, h]
  · rw [List.reverse_append]
    rfl

theorem trimEnd_of_not_isBlank {s : List Char} (h : ∀ c ∈ s, isBlank c = false) : trimEnd s = s := by
  induction s with
  | nil => rfl
  | cons c r ih =>
    obtain ⟨hc, hr⟩ := List.forall_mem_cons.1 h
    rw [trimEnd_cons_of_not_isBlank hc, ih hr]

/-- A text without blanks is not trimmed. -/
theorem trim_of_not_isBlank {s : List Char} (h : ∀ c ∈ s, isBlank c = false) : trim s = s := by
  have hstart : trimStart s = s := by
    cases s with
    | nil => rfl
    | cons c r => simp [trimStart, h c List.mem_cons_self]
  rw [trim, hstart, trimEnd_of_not_isBlank h]

/-! ## Dividing -/

/-- The pieces of a text between the characters that satisfy `p`; `n` such characters make `n + 1`
pieces. -/
def splitOn (p : Char → Bool) : List Char → List (List Char)
  | [] => [[]]
  | c :: r =>
    if p c then [] :: splitOn p r
    else
      match splitOn p r with
      | [] => [[c]]
      | piece :: pieces => (c :: piece) :: pieces

theorem splitOn_eq_splitOnP (p : Char → Bool) (s : List Char) : splitOn p s = s.splitOnP p := by
  induction s with
  | nil => rfl
  | cons c r ih =>
    rw [splitOn, List.splitOnP_cons_eq_if_modifyHead, ih]
    split
    · rfl
    · obtain ⟨piece, pieces, h⟩ := List.exists_cons_of_ne_nil (List.splitOnP_ne_nil p r)
      rw [h]
      rfl

theorem not_mem_of_mem_splitOn {p : Char → Bool} {text piece : List Char} {c : Char} (hc : p c = true)
    (h : piece ∈ splitOn p text) : c ∉ piece := by
  induction text generalizing piece with
  | nil =>
    rw [splitOn, List.mem_singleton] at h
    simp [h]
  | cons d text ih =>
    rw [splitOn] at h
    cases hd : p d with
    | true =>
      rw [hd, if_pos rfl, List.mem_cons] at h
      rcases h with rfl | h
      · simp
      · exact ih h
    | false =>
      have hne : c ≠ d := by
        rintro rfl
        rw [hc] at hd
        cases hd
      cases hrest : splitOn p text with
      | nil =>
        rw [hrest, hd] at h
        simp_all
      | cons first rest =>
        rw [hrest] at h ih
        simp only [hd, Bool.false_eq_true, if_false, List.mem_cons] at h
        rcases h with rfl | h
        · simp only [List.mem_cons, not_or]
          exact ⟨hne, ih (List.mem_cons_self)⟩
        · exact ih (List.mem_cons_of_mem _ h)

/-- The maximal runs of characters that are not blank. -/
def words (s : List Char) : List (List Char) := (splitOn isBlank s).filter (!·.isEmpty)

/-- The text with every run of blanks turned into one space, and trimmed. -/
def collapseBlanks (s : List Char) : List Char := [' '].intercalate (words s)

/-! ## Beginnings and ends -/

/-- The text after `start`, when it begins with it. -/
def dropStart? : List Char → List Char → Option (List Char)
  | [], s => some s
  | _ :: _, [] => none
  | c :: start, d :: s => if c = d then dropStart? start s else none

theorem dropStart?_append (start s : List Char) : dropStart? start (start ++ s) = some s := by
  induction start with
  | nil => cases s <;> rfl
  | cons c r ih => simp [dropStart?, ih]

theorem eq_append_of_dropStart? {start s rest : List Char} (h : dropStart? start s = some rest) :
    s = start ++ rest := by
  fun_induction dropStart? start s with
  | case1 s => exact Option.some.inj h
  | case2 => cases h
  | case3 c start s ih => rw [ih h, List.cons_append]
  | case4 => cases h

/-- Whether a text ends with `tail`. -/
def endsWith (tail s : List Char) : Bool := tail.isSuffixOf s

/-- The text after the last character equal to `c`, or the whole text when there is none. -/
def afterLast (c : Char) (s : List Char) : List Char :=
  (s.reverse.takeWhile (· != c)).reverse

/-- The text before the first character equal to `c`, and the text after it when there is one. -/
def splitFirst (c : Char) : List Char → List Char × Option (List Char)
  | [] => ([], none)
  | d :: r =>
    if d = c then ([], some r)
    else
      let (before, after) := splitFirst c r
      (d :: before, after)

theorem splitFirst_eq {c : Char} (before after : List Char) (h : c ∉ before) :
    splitFirst c (before ++ c :: after) = (before, some after) := by
  induction before with
  | nil => simp [splitFirst]
  | cons d before ih =>
    have hne : ¬ d = c := fun heq => h (by simp [heq])
    rw [List.cons_append, splitFirst, if_neg hne, ih fun hmem => h (List.mem_cons_of_mem _ hmem)]

theorem splitFirst_eq_some {c : Char} {s before after : List Char}
    (h : splitFirst c s = (before, some after)) : s = before ++ c :: after ∧ c ∉ before := by
  induction s generalizing before with
  | nil => cases h
  | cons d s ih =>
    rw [splitFirst] at h
    split at h
    · rename_i hd
      cases h
      exact ⟨by rw [hd]; rfl, by simp⟩
    · rename_i hd
      cases hs : splitFirst c s with
      | mk before' after' =>
        rw [hs] at h
        cases h
        obtain ⟨rfl, hmem⟩ := ih hs
        exact ⟨rfl, by simp [hmem, Ne.symm hd]⟩

theorem splitFirst_of_not_mem {c : Char} {s : List Char} (h : c ∉ s) : splitFirst c s = (s, none) := by
  induction s with
  | nil => rfl
  | cons d s ih =>
    have hne : ¬ d = c := fun heq => h (by simp [heq])
    rw [splitFirst, if_neg hne, ih fun hmem => h (List.mem_cons_of_mem _ hmem)]

/-- Whether `pattern` occurs in a text. -/
def contains (pattern : List Char) : List Char → Bool
  | [] => pattern.isEmpty
  | c :: r => (dropStart? pattern (c :: r)).isSome || contains pattern r

end TypeBridge.Text
