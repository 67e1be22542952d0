import CodeChallenges.Text.Blank
/-!
# Trimming

Blanks next to a text make no difference to what is left of it.  A piece of a text, trimmed, is a
piece of the text trimmed: what is cut off the ends of the text is blank, and is cut off the piece
as well where the piece reaches into it.
-/

namespace CodeChallenges.Text

theorem isInfix_dropWhile {α : Type} {p : α → Bool} {inner outer : List α} (h : inner <:+: outer) :
    inner.dropWhile p <:+: outer.dropWhile p := by
  obtain ⟨front, back, rfl⟩ := h
  rw [List.append_assoc, List.dropWhile_append]
  split
  · -- All of the front is dropped, and the piece is next.
    rw [List.dropWhile_append]
    split
    · rename_i hnone
      rw [List.isEmpty_iff.mp hnone]
      exact List.nil_infix
    · exact (List.prefix_append _ back).isInfix
  · have hpiece : inner <:+: front.dropWhile p ++ (inner ++ back) :=
      ⟨front.dropWhile p, back, List.append_assoc _ _ _⟩
    exact (List.dropWhile_suffix p).isInfix.trans hpiece

theorem isInfix_trimEnd {inner outer : List Char} (h : inner <:+: outer) :
    trimEnd inner <:+: trimEnd outer :=
  (isInfix_dropWhile h.reverse).reverse

/-- A blank before a text is cut off. -/
theorem trim_cons_of_isBlank {c : Char} (h : isBlank c = true) (cs : List Char) :
    trim (c :: cs) = trim cs := by
  rw [trim, List.dropWhile_cons_of_pos h, trim]

/-- A blank after a text is cut off. -/
theorem trim_concat_of_isBlank {c : Char} (h : isBlank c = true) (cs : List Char) :
    trim (cs ++ [c]) = trim cs := by
  rw [trim, trim, List.dropWhile_append]
  split
  · rename_i hnone
    rw [List.isEmpty_iff.mp hnone, List.dropWhile_cons_of_pos h, List.dropWhile_nil]
  · rw [trimEnd, trimEnd, List.reverse_concat, List.dropWhile_cons_of_pos h]

theorem isInfix_trim {inner outer : List Char} (h : inner <:+: outer) :
    trim inner <:+: trim outer :=
  isInfix_trimEnd (isInfix_dropWhile h)

end CodeChallenges.Text
