import CodeChallenges.Proofs.BlankLines
/-!
# Cutting a text into lines

The lines of a text are the one way to cut it after each newline (`linesOf_eq_iff`): pieces that are
not empty, with a newline at most at their end, and at the end of each but the last.  So lines that
are left out or replaced by lines give a text with just the remaining lines.

A text that stands in a longer one has the lines of the longer one, except that its first line may
begin and its last line may end inside a line (`exists_linesOf_append`,
`exists_linesOf_append_right`).
-/

namespace CodeChallenges.BlankLines

/-- Pieces of a text that is cut after each newline. -/
structure Cut (lines : List (List Char)) : Prop where
  ne_nil : ∀ line ∈ lines, line ≠ []
  inside : ∀ line ∈ lines, '\n' ∉ line.dropLast
  ended : lines.Pairwise (fun line _ => line.getLast? = some '\n')

theorem addChar_newline (lines : List (List Char)) : addChar '\n' lines = ['\n'] :: lines :=
  rfl

/-- A character that is no newline joins the first line. -/
theorem addChar_of_ne {c : Char} (h : c ≠ '\n') (line : List Char) (rest : List (List Char)) :
    addChar c (line :: rest) = (c :: line) :: rest :=
  if_neg (fun hc => h (beq_iff_eq.mp hc))

theorem addChar_nil (c : Char) : addChar c [] = [[c]] := by
  unfold addChar
  split
  · rfl
  · rfl

theorem cut_addChar {c : Char} {lines : List (List Char)} (h : Cut lines) :
    Cut (addChar c lines) := by
  by_cases hc : c = '\n'
  · subst hc
    rw [addChar_newline]
    exact ⟨List.forall_mem_cons.mpr ⟨List.cons_ne_nil _ _, h.ne_nil⟩,
      List.forall_mem_cons.mpr ⟨List.not_mem_nil, h.inside⟩,
      List.pairwise_cons.mpr ⟨fun _ _ => rfl, h.ended⟩⟩
  · cases lines with
    | nil =>
        rw [addChar_nil]
        refine ⟨?_, ?_, List.pairwise_singleton _ _⟩
        · exact List.forall_mem_singleton.mpr (List.cons_ne_nil _ _)
        · exact List.forall_mem_singleton.mpr List.not_mem_nil
    | cons line rest =>
        rw [addChar_of_ne hc]
        obtain ⟨hne, hnes⟩ := List.forall_mem_cons.mp h.ne_nil
        obtain ⟨hin, hins⟩ := List.forall_mem_cons.mp h.inside
        obtain ⟨hend, hends⟩ := List.pairwise_cons.mp h.ended
        refine ⟨List.forall_mem_cons.mpr ⟨List.cons_ne_nil _ _, hnes⟩,
          List.forall_mem_cons.mpr ⟨?_, hins⟩, List.pairwise_cons.mpr ⟨?_, hends⟩⟩
        · rw [List.dropLast_cons_of_ne_nil hne]
          exact fun hmem => (List.mem_cons.mp hmem).elim (fun heq => hc heq.symm) hin
        · intro later hlater
          rw [List.getLast?_cons_of_ne_nil hne]
          exact hend later hlater

theorem cut_linesOf (text : List Char) : Cut (linesOf text) := by
  induction text with
  | nil => exact ⟨List.forall_mem_nil _, List.forall_mem_nil _, List.Pairwise.nil⟩
  | cons c text ih => exact cut_addChar ih

/-- Putting the characters of a line in front of lines puts the line in front of them, if it is
ended or comes last. -/
theorem foldr_addChar {line : List Char} {lines : List (List Char)} (hne : line ≠ [])
    (hin : '\n' ∉ line.dropLast) (hend : lines = [] ∨ line.getLast? = some '\n') :
    line.foldr addChar lines = line :: lines := by
  induction line with
  | nil => exact absurd rfl hne
  | cons c line ih =>
      cases line with
      | nil =>
          rcases hend with rfl | hend
          · exact addChar_nil c
          · obtain rfl : c = '\n' := Option.some.inj hend
            rfl
      | cons d line =>
          rw [List.dropLast_cons_of_ne_nil (List.cons_ne_nil _ _), List.mem_cons, not_or] at hin
          rw [List.getLast?_cons_of_ne_nil (List.cons_ne_nil _ _)] at hend
          rw [List.foldr_cons, ih (List.cons_ne_nil _ _) hin.2 hend,
            addChar_of_ne (Ne.symm hin.1)]

/-- Cut pieces are the lines of the text that they make up. -/
theorem Cut.linesOf_flatten {lines : List (List Char)} (h : Cut lines) :
    linesOf lines.flatten = lines := by
  induction lines with
  | nil => rfl
  | cons line lines ih =>
      obtain ⟨hne, hnes⟩ := List.forall_mem_cons.mp h.ne_nil
      obtain ⟨hin, hins⟩ := List.forall_mem_cons.mp h.inside
      obtain ⟨hend, hends⟩ := List.pairwise_cons.mp h.ended
      have hlines : linesOf (line :: lines).flatten = line.foldr addChar lines := by
        rw [List.flatten_cons, linesOf, List.foldr_append]
        exact congrArg (line.foldr addChar ·) (ih ⟨hnes, hins, hends⟩)
      rw [hlines]
      refine foldr_addChar hne hin ?_
      cases lines with
      | nil => exact .inl rfl
      | cons next rest => exact .inr (hend next List.mem_cons_self)

/-- **The lines of a text** are its one cut after each newline. -/
theorem linesOf_eq_iff {text : List Char} {lines : List (List Char)} :
    linesOf text = lines ↔ lines.flatten = text ∧ Cut lines := by
  constructor
  · rintro rfl
    exact ⟨flatten_linesOf text, cut_linesOf text⟩
  · rintro ⟨rfl, h⟩
    exact h.linesOf_flatten

theorem Cut.sublist {lines lines' : List (List Char)} (h : Cut lines')
    (hsub : lines.Sublist lines') : Cut lines :=
  ⟨fun line hline => h.ne_nil line (hsub.subset hline),
    fun line hline => h.inside line (hsub.subset hline), h.ended.sublist hsub⟩

/-! ## A text within another -/

/-- What stands before a text belongs to lines of its own, except for its last characters, which
stand in the first line of the text.  Where it is cut does not depend on the text. -/
theorem exists_linesOf_append (front : List Char) :
    ∃ before start, front = before.flatten ++ start ∧
      ∀ {text line rest}, linesOf text = line :: rest →
        linesOf (front ++ text) = before ++ (start ++ line) :: rest := by
  induction front with
  | nil => exact ⟨[], [], rfl, fun h => h⟩
  | cons c front ih =>
      obtain ⟨before, start, rfl, hlines⟩ := ih
      by_cases hc : c = '\n'
      · subst hc
        exact ⟨['\n'] :: before, start, rfl, fun h => congrArg (addChar '\n') (hlines h)⟩
      · cases before with
        | nil =>
            exact ⟨[], c :: start, rfl,
              fun h => (congrArg (addChar c) (hlines h)).trans (addChar_of_ne hc _ _)⟩
        | cons first before =>
            exact ⟨(c :: first) :: before, start, rfl,
              fun h => (congrArg (addChar c) (hlines h)).trans (addChar_of_ne hc _ _)⟩

/-- The first character of a text begins its first line. -/
theorem exists_linesOf_cons (c : Char) (text : List Char) :
    ∃ line rest, linesOf (c :: text) = (c :: line) :: rest := by
  show ∃ line rest, addChar c (linesOf text) = (c :: line) :: rest
  by_cases hc : c = '\n'
  · subst hc
    exact ⟨[], linesOf text, rfl⟩
  · cases linesOf text with
    | nil => exact ⟨[], [], addChar_nil c⟩
    | cons line rest => exact ⟨line, rest, addChar_of_ne hc line rest⟩

/-- What stands after a text belongs to lines of its own, except for its first characters, which
stand in the last line of the text if no newline ends it. -/
theorem exists_linesOf_append_right {text : List Char} {last : Char}
    (hlast : text.getLast? = some last) (hne : last ≠ '\n') (back : List Char) :
    ∃ before line stop after, linesOf text = before ++ [line ++ [last]] ∧
      linesOf (text ++ back) = before ++ (line ++ [last] ++ stop) :: after := by
  induction text with
  | nil => cases hlast
  | cons c text ih =>
      cases text with
      | nil =>
          obtain rfl : c = last := Option.some.inj hlast
          show ∃ before line stop after, addChar c [] = before ++ [line ++ [c]] ∧
            addChar c (linesOf back) = before ++ (line ++ [c] ++ stop) :: after
          cases linesOf back with
          | nil => exact ⟨[], [], [], [], addChar_nil c, addChar_nil c⟩
          | cons stop after =>
              exact ⟨[], [], stop, after, addChar_nil c, addChar_of_ne hne stop after⟩
      | cons d text =>
          rw [List.getLast?_cons_of_ne_nil (List.cons_ne_nil _ _)] at hlast
          obtain ⟨before, line, stop, after, hown, hlines⟩ := ih hlast
          have hadd : linesOf (c :: d :: text) = addChar c (before ++ [line ++ [last]]) :=
            congrArg (addChar c) hown
          have hadd' : linesOf (c :: d :: text ++ back) =
              addChar c (before ++ (line ++ [last] ++ stop) :: after) := congrArg (addChar c) hlines
          rw [hadd, hadd']
          by_cases hc : c = '\n'
          · subst hc
            exact ⟨['\n'] :: before, line, stop, after, rfl, rfl⟩
          · cases before with
            | nil =>
                exact ⟨[], c :: line, stop, after, addChar_of_ne hc _ _, addChar_of_ne hc _ _⟩
            | cons first before =>
                exact ⟨(c :: first) :: before, line, stop, after, addChar_of_ne hc _ _,
                  addChar_of_ne hc _ _⟩

end CodeChallenges.BlankLines
