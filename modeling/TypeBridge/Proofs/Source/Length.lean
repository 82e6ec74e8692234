import TypeBridge.Proofs.Source.Piece

/-!
# How long pieces are

No piece is longer than the text that it begins.

Results:
* `numberLength?_le`, `directiveAfterHash?_le`, `literal?_le`: the parts of a piece.
* `piece?_le`: all pieces.
-/
namespace TypeBridge.Source.Lexeme

theorem countWhile_le (p : Char → Bool) (s : List Char) : countWhile p s ≤ s.length :=
  (List.takeWhile_prefix p).length_le

theorem wordLength?_le {s : List Char} {n : Nat} (h : wordLength? s = some n) : n ≤ s.length := by
  unfold wordLength? at h
  split at h
  · rename_i c r
    have hle := countWhile_le isWordPart r
    split at h
    · obtain rfl := Option.some.inj h
      simp only [List.length_cons]
      omega
    · cases h
  · rename_i c r _
    have hle := countWhile_le isWordPart r
    split at h
    · obtain rfl := Option.some.inj h
      simp only [List.length_cons]
      omega
    · cases h
  · cases h

/-! ## Numbers -/

theorem fractionLength_le (s : List Char) : fractionLength s ≤ s.length := by
  unfold fractionLength
  split
  · rename_i d r
    have hle := countWhile_le isDigitPart r
    split
    · simp only [List.length_cons]
      omega
    · omega
  · omega

theorem exponentLength_le (s : List Char) : exponentLength s ≤ s.length := by
  unfold exponentLength
  split
  · rename_i e sign d r
    have hshort := countWhile_le isDigitPart r
    have hlong := countWhile_le isDigitPart (d :: r)
    simp only [List.length_cons] at hlong ⊢
    split
    · split
      · omega
      · split <;> omega
    · omega
  · split <;> simp
  · omega

theorem integerSuffix_le (s : List Char) : integerSuffix s ≤ s.length := countWhile_le _ s

theorem realSuffix_le (s : List Char) : realSuffix s ≤ s.length := by
  unfold realSuffix
  split
  · split <;> simp
  · simp

theorem numberTail_le (s : List Char) : numberTail s ≤ s.length := by
  have hexponent := exponentLength_le s
  have hreal := realSuffix_le (s.drop (exponentLength s))
  have hinteger := integerSuffix_le s
  rw [List.length_drop] at hreal
  unfold numberTail
  dsimp only
  split <;> omega

theorem numberLength?_le {s : List Char} {n : Nat} (h : numberLength? s = some n) : n ≤ s.length := by
  have hbased (p : Char → Bool) (r : List Char) :
      2 + countWhile p r + integerSuffix (r.drop (countWhile p r)) ≤ r.length + 1 + 1 := by
    have hdigits := countWhile_le p r
    have hsuffix := integerSuffix_le (r.drop (countWhile p r))
    rw [List.length_drop] at hsuffix
    omega
  unfold numberLength? at h
  split at h
  · exact Option.some.inj h ▸ hbased _ _
  · exact Option.some.inj h ▸ hbased _ _
  · exact Option.some.inj h ▸ hbased _ _
  · exact Option.some.inj h ▸ hbased _ _
  · have hwhole : (if (s.head?.map Char.isDigit).getD false then countWhile isDigitPart s else 0) ≤ s.length := by
      have hle := countWhile_le isDigitPart s
      split <;> omega
    generalize (if (s.head?.map Char.isDigit).getD false then countWhile isDigitPart s else 0) = whole at h hwhole
    have hfraction := fractionLength_le (s.drop whole)
    have htail := numberTail_le (s.drop (whole + fractionLength (s.drop whole)))
    rw [List.length_drop] at hfraction htail
    dsimp only at h
    split at h
    · cases h
    · obtain rfl := Option.some.inj h
      omega

/-! ## Marks and comments -/

theorem markLength?_le {s : List Char} {n : Nat} (h : markLength? s = some n) : n ≤ s.length := by
  unfold markLength? at h
  split at h
  · rename_i mark hmark
    obtain rfl := Option.some.inj h
    have hstart : mark.toList <+: s :=
      List.isPrefixOf_iff_prefix.1 (List.find?_some (p := fun mark : String => mark.toList.isPrefixOf s) hmark)
    rw [← String.length_toList]
    exact hstart.length_le
  · split at h
    · split at h
      · obtain rfl := Option.some.inj h
        simp
      · obtain rfl := Option.some.inj h
        simp
    · obtain rfl := Option.some.inj h
      simp
    · split at h
      · obtain rfl := Option.some.inj h
        simp
      · cases h
    · cases h

theorem blockEnd?_le {s : List Char} {n : Nat} (h : blockEnd? s = some n) : n ≤ s.length := by
  fun_induction blockEnd? s generalizing n with
  | case1 r =>
    obtain rfl := Option.some.inj h
    simp
  | case2 c r _ ih =>
    obtain ⟨m, hm, rfl⟩ := Option.map_eq_some_iff.1 h
    exact Nat.succ_le_succ (ih hm)
  | case3 => cases h

theorem commentLength?_le {s : List Char} {n : Nat} (h : commentLength? s = some n) : n ≤ s.length := by
  unfold commentLength? at h
  split at h
  · rename_i r
    have hle := countWhile_le (fun c => !endsLine c) r
    obtain rfl := Option.some.inj h
    simp only [List.length_cons]
    omega
  · obtain ⟨m, hm, rfl⟩ := Option.map_eq_some_iff.1 h
    exact Nat.add_le_add_right (blockEnd?_le hm) 2
  · cases h

theorem blankLines_le (s : List Char) : blankLines s ≤ s.length := by
  have hle := countWhile_le isSpace s
  unfold blankLines
  rw [countWhile] at hle
  dsimp only
  omega

/-! ## Directives -/

/-- The length of a directive up to the end of its name. -/
theorem length_name_le (s : List Char) :
    countWhile (fun c => c == ' ' || c == '\t') s +
      ((s.drop (countWhile (fun c => c == ' ' || c == '\t') s)).takeWhile Char.isAlpha).length ≤ s.length := by
  have hle := countWhile_le (fun c => c == ' ' || c == '\t') s
  have hname := countWhile_le Char.isAlpha (s.drop (countWhile (fun c => c == ' ' || c == '\t') s))
  rw [countWhile, List.length_drop] at hname
  omega

theorem directiveAfterHash?_le {s : List Char} {kind : Kind} {n : Nat} (h : directiveAfterHash? s = some (kind, n)) :
    n ≤ s.length := by
  have hbound {k : Nat} {name : List Char} (hname : (s.drop k).takeWhile Char.isAlpha = name)
      (hpos : 0 < name.length) : k + name.length ≤ s.length := by
    have hle := countWhile_le Char.isAlpha (s.drop k)
    rw [countWhile, hname, List.length_drop] at hle
    omega
  cases isDirective_of_directiveAfterHash? h with
  | elseBranch k helse => exact hbound helse (by decide)
  | endBranch k hendif => exact hbound hendif (by decide)
  | condition before count _ hcount =>
    obtain ⟨line, r, hline, rfl⟩ := lineEnd?_spec hcount
    have htotal := congrArg List.length hline
    simp only [List.length_drop, List.length_append, List.length_cons] at htotal
    omega
  | line before count hcount =>
    obtain ⟨line, r, hline, rfl⟩ := lineEnd?_spec hcount
    have hblank := blankLines_le ((s.drop before).drop line.length)
    have htotal := congrArg List.length hline
    simp only [List.length_drop, List.length_append, List.length_cons] at hblank htotal
    omega

/-! ## Literals -/

theorem characterLength?_le {s : List Char} {n : Nat} (h : Literal.characterLength? s = some n) : n ≤ s.length := by
  unfold Literal.characterLength? at h
  split at h
  · rename_i r
    split at h
    · rename_i length _
      split at h
      · rename_i hquote
        obtain rfl := Option.some.inj h
        have hlt : length < r.length := by
          by_contra hle
          rw [List.drop_of_length_le (by omega)] at hquote
          cases hquote
        simp only [List.length_cons]
        omega
      · cases h
    · cases h
  · split at h
    · cases h
    · obtain rfl := Option.some.inj h
      simp
  · cases h

theorem literal?_le {s : List Char} {kind : Kind} {n : Nat} (h : literal? s = some (kind, n)) : n ≤ s.length := by
  rcases literal?_eq_some h with ⟨-, -, hlength⟩ | ⟨-, length, hlength, rfl | ⟨rfl, u, r, hsuffix⟩⟩
  · exact characterLength?_le hlength
  · exact Literal.length?_le hlength
  · have htotal := congrArg List.length hsuffix
    simp only [List.length_drop, List.length_cons] at htotal
    omega

/-! ## Pieces -/

theorem piece?_le {s : List Char} {kind : Kind} {n : Nat} (h : piece? s = some (kind, n)) : n ≤ s.length := by
  cases s with
  | nil => cases h
  | cons c r =>
    rcases piece?_eq_some h with ⟨-, -, rfl⟩ | ⟨-, m, hdirective, rfl⟩ | ⟨-, hcomment⟩ | hliteral | ⟨-, hword⟩ |
      ⟨-, hnumber⟩ | ⟨-, hmark⟩
    · have hle := countWhile_le isSpace r
      simp only [List.length_cons]
      omega
    · exact Nat.succ_le_succ (directiveAfterHash?_le hdirective)
    · exact commentLength?_le hcomment
    · exact literal?_le hliteral
    · exact wordLength?_le hword
    · exact numberLength?_le hnumber
    · exact markLength?_le hmark

end TypeBridge.Source.Lexeme
