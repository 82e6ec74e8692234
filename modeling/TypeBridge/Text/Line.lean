import TypeBridge.Text.Blank

/-!
# Lines

A line ends at any of the characters that break lines, a carriage return with a line feed counting as
one break. A break at the very end of a text opens no further line.

* `not_isLineBreak_of_mem_lines`: no line holds a line break.
-/
namespace TypeBridge.Text

/-- The characters that end a line. -/
def isLineBreak (c : Char) : Bool :=
  let n := c.toNat
  (10 ≤ n && n ≤ 13) || (28 ≤ n && n ≤ 30) || n == 0x85 || n == 0x2028 || n == 0x2029

/-- The lines of a text. -/
def lines : List Char → List (List Char)
  | [] => []
  | '\r' :: '\n' :: r => [] :: lines r
  | c :: r =>
    if isLineBreak c then [] :: lines r
    else
      match lines r with
      | [] => [[c]]
      | line :: rest => (c :: line) :: rest

theorem not_isLineBreak_of_mem_lines {s line : List Char} (h : line ∈ lines s) :
    ∀ c ∈ line, isLineBreak c = false := by
  fun_induction lines s generalizing line with
  | case1 => simp at h
  | case2 r ih =>
    rcases List.mem_cons.1 h with rfl | h
    · simp
    · exact ih h
  | case3 c r _ _ ih =>
    rcases List.mem_cons.1 h with rfl | h
    · simp
    · exact ih h
  | case4 c r _ hc _ ih => simp_all
  | case5 c r _ hc first rest hr ih =>
    rcases List.mem_cons.1 h with rfl | h
    · intro d hd
      rcases List.mem_cons.1 hd with rfl | hd
      · simpa using hc
      · exact ih (hr ▸ List.mem_cons_self) d hd
    · exact ih (hr ▸ List.mem_cons_of_mem _ h)

/-- The lines without the blank lines at the beginning and at the end. Mirrors `trim_blank_edges`. -/
def trimBlankLines (ls : List (List Char)) : List (List Char) :=
  ((ls.dropWhile isBlankText).reverse.dropWhile isBlankText).reverse

/-- The lines with a line feed between each two. -/
def joinLines (ls : List (List Char)) : List Char := ['\n'].intercalate ls

end TypeBridge.Text
