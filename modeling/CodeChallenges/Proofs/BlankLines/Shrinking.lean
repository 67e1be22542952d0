import CodeChallenges.Proofs.BlankLines.Runs
/-!
# What becomes of blank lines

Shrinking is a relation between the lines of two texts (`Shrunk`): a line that is not blank stays,
and of a maximal run of blank lines the terminators of its first lines stay.  The new text has just
the lines that the relation gives (`linesOf_collapse`), since a terminator is a line by itself.  The
map sends the characters of the lines that stay to themselves, each to a place of its own, and those
of a blank run to the place where its replacement begins (`collapse_shrinks`).
-/

namespace CodeChallenges.BlankLines

variable {n : Nat} {maxRun : Int} {line text : List Char}
  {before run after lines out : List (List Char)}

/-! ## Terminators -/

/-- What can end a line: nothing, a newline, or a newline after a carriage return. -/
def terminators : List (List Char) :=
  [[], ['\n'], ['\r', '\n']]

theorem terminator_mem (line : List Char) : terminator line ∈ terminators := by
  unfold terminator
  split <;> decide

/-- The terminator of a line is the longest that the line ends with. -/
theorem terminator_longest (line : List Char) :
    terminator line <:+ line ∧
      ∀ t ∈ terminators, t <:+ line → t.length ≤ (terminator line).length := by
  have hback : ∀ t : List Char, t <:+ line ↔ t.reverse <+: line.reverse :=
    fun t => List.reverse_prefix.symm
  have htwo : ∀ t ∈ terminators, t.length ≤ 2 := by decide
  simp only [hback, terminator]
  generalize line.reverse = r
  split
  · exact ⟨⟨_, rfl⟩, fun t ht _ => htwo t ht⟩
  · rename_i rest hno
    refine ⟨⟨_, rfl⟩, ?_⟩
    intro t ht hpre
    simp only [terminators, List.mem_cons, List.not_mem_nil, or_false] at ht
    rcases ht with rfl | rfl | rfl
    · exact Nat.zero_le _
    · exact Nat.le_refl _
    · obtain ⟨more, hmore⟩ := hpre
      exact absurd (List.cons.inj hmore).2.symm (hno more)
  · rename_i _ hno
    refine ⟨List.nil_prefix, ?_⟩
    intro t ht hpre
    simp only [terminators, List.mem_cons, List.not_mem_nil, or_false] at ht
    rcases ht with rfl | rfl | rfl
    · exact Nat.zero_le _
    all_goals
      obtain ⟨more, hmore⟩ := hpre
      exact absurd hmore.symm (hno _)

/-- A terminator that is not empty is a blank line by itself. -/
theorem terminator_line {t : List Char} (h : t ∈ terminators) (hne : t ≠ []) :
    '\n' ∉ t.dropLast ∧ t.getLast? = some '\n' ∧ isBlankLine t = true := by
  revert t
  decide

/-! ## The relation -/

/-- What stands for a run of blank lines: the terminators of its first `n` lines, as far as they
have one. -/
def replacement (n : Nat) (run : List (List Char)) : List (List Char) :=
  ((run.take n).map terminator).filter (· ≠ [])

/-- How the lines of a text and the lines of its shrunk form go together. -/
inductive Shrunk (n : Nat) : List (List Char) → List (List Char) → Prop
  | nil : Shrunk n [] []
  | solid {line : List Char} {lines out : List (List Char)} :
      isBlankLine line = false → Shrunk n lines out → Shrunk n (line :: lines) (line :: out)
  | blank {run lines out : List (List Char)} :
      BlankRun [] run lines → Shrunk n lines out →
      Shrunk n (run ++ lines) (replacement n run ++ out)

theorem replacement_line (h : line ∈ replacement n run) :
    line ≠ [] ∧ '\n' ∉ line.dropLast ∧ line.getLast? = some '\n' ∧ isBlankLine line = true := by
  obtain ⟨hmem, hne⟩ := List.mem_filter.mp h
  obtain ⟨whole, -, rfl⟩ := List.mem_map.mp hmem
  have hne' := of_decide_eq_true hne
  exact ⟨hne', terminator_line (terminator_mem whole) hne'⟩

/-- Lines that are not blank stay as they are, in their order. -/
theorem Shrunk.filter_solid (h : Shrunk n lines out) :
    out.filter (!isBlankLine ·) = lines.filter (!isBlankLine ·) := by
  have hnone : ∀ {blanks : List (List Char)}, (∀ line ∈ blanks, isBlankLine line = true) →
      blanks.filter (!isBlankLine ·) = [] := by
    intro blanks hblank
    refine List.filter_eq_nil_iff.mpr ?_
    intro line hline
    rw [hblank line hline]
    exact Bool.false_ne_true
  induction h with
  | nil => rfl
  | solid hsolid _ ih =>
      rw [List.filter_cons_of_pos (by rw [hsolid]; rfl),
        List.filter_cons_of_pos (by rw [hsolid]; rfl), ih]
  | blank hrun _ ih =>
      rw [List.filter_append, List.filter_append, ih, hnone hrun.blank,
        hnone fun line hline => (replacement_line hline).2.2.2]

/-! ## The lines of the new text -/

/-- A blank line in front of lines begins a maximal run of blank lines. -/
theorem exists_blankRun (h : isBlankLine line = true) (lines : List (List Char)) :
    ∃ run rest, line :: lines = run ++ rest ∧ BlankRun [] run rest ∧
      rest.length ≤ lines.length := by
  refine ⟨line :: lines.takeWhile isBlankLine, lines.dropWhile isBlankLine, ?_, ?_,
    (List.dropWhile_suffix _).length_le⟩
  · rw [List.cons_append, List.takeWhile_append_dropWhile]
  · refine ⟨List.cons_ne_nil _ _, ?_, ?_, ?_⟩
    · exact List.forall_mem_cons.mpr ⟨h, List.all_eq_true.mp List.all_takeWhile⟩
    · intro last hlast
      cases hlast
    · intro next hnext
      have hnot := List.head?_dropWhile_not isBlankLine lines
      rw [hnext] at hnot
      exact hnot

/-- Lines are taken from the front: a line that is not blank, or a maximal run of blank lines. -/
theorem runs_induction {motive : List (List Char) → Prop} (nil : motive [])
    (solid : ∀ line lines, isBlankLine line = false → motive lines → motive (line :: lines))
    (blank : ∀ run lines, BlankRun [] run lines → motive lines → motive (run ++ lines)) :
    ∀ lines, motive lines
  | [] => nil
  | line :: lines => by
      cases hline : isBlankLine line with
      | false => exact solid line lines hline (runs_induction nil solid blank lines)
      | true =>
          obtain ⟨run, rest, heq, hrun, hlen⟩ := exists_blankRun hline lines
          rw [heq]
          exact blank run rest hrun (runs_induction nil solid blank rest)
  termination_by lines => lines.length
  decreasing_by
    · exact Nat.lt_succ_self _
    · exact Nat.lt_succ_of_le hlen

/-- The lines that stand for a run. -/
def Run.pieces (n : Nat) : Run → List (List Char)
  | .blank lines => replacement n lines
  | .solid line => [line]

/-- The lines that stand for lines. -/
def piecesOf (n : Nat) (lines : List (List Char)) : List (List Char) :=
  (runsOf lines).flatMap (Run.pieces n)

theorem piecesOf_cons_solid (h : isBlankLine line = false) :
    piecesOf n (line :: lines) = line :: piecesOf n lines :=
  congrArg (List.flatMap (Run.pieces n)) (addLine_of_solid h (runsOf lines))

theorem BlankRun.piecesOf_append (h : BlankRun before run after) :
    piecesOf n (before ++ run ++ after) =
      piecesOf n before ++ replacement n run ++ piecesOf n after := by
  rw [piecesOf, h.runsOf_append, List.flatMap_append, List.flatMap_cons, List.append_assoc]
  rfl

/-- A blank run at the front has its replacement at the front. -/
theorem BlankRun.piecesOf_run (h : BlankRun [] run lines) :
    piecesOf n (run ++ lines) = replacement n run ++ piecesOf n lines :=
  h.piecesOf_append

/-- Lines and what stands for them are related. -/
theorem shrunk_piecesOf (n : Nat) (lines : List (List Char)) :
    Shrunk n lines (piecesOf n lines) := by
  induction lines using runs_induction with
  | nil => exact .nil
  | solid line lines hline ih =>
      rw [piecesOf_cons_solid hline]
      exact .solid hline ih
  | blank run lines hrun ih =>
      rw [hrun.piecesOf_run]
      exact .blank hrun ih

/-- What stands for a blank run in the new text is its replacement. -/
theorem flatten_replacement (n : Nat) (run : List (List Char)) :
    (replacement n run).flatten = (Run.blank run).kept n := by
  show (((run.take n).map terminator).filter (· ≠ [])).flatten = (run.take n).flatMap terminator
  rw [List.flatten_filter_ne_nil, List.flatMap_def]

theorem flatten_piecesOf (n : Nat) (lines : List (List Char)) :
    (piecesOf n lines).flatten = keptOf n lines := by
  have hrun : ∀ run : Run, (run.pieces n).flatten = run.kept n := by
    intro run
    cases run with
    | solid line => exact List.flatten_singleton
    | blank lines => exact flatten_replacement n lines
  rw [piecesOf, keptOf]
  induction runsOf lines with
  | nil => rfl
  | cons run runs ih => rw [List.flatMap_cons, List.flatten_append, hrun, ih, List.flatMap_cons]

/-- Nothing stands for no lines. -/
theorem Shrunk.eq_nil (h : Shrunk n [] out) : out = [] := by
  generalize hlines : [] = lines at h
  cases h with
  | nil => rfl
  | solid => cases hlines
  | blank hrun _ => exact absurd (List.append_eq_nil_iff.mp hlines.symm).1 hrun.ne_nil

/-- What stands for the lines of a text are lines. -/
theorem Shrunk.cut (h : Shrunk n lines out) (hcut : Cut lines) : Cut out := by
  induction h with
  | nil => exact hcut
  | @solid line lines out _ hrest ih =>
      obtain ⟨hne, hnes⟩ := List.forall_mem_cons.mp hcut.ne_nil
      obtain ⟨hin, hins⟩ := List.forall_mem_cons.mp hcut.inside
      obtain ⟨hend, hends⟩ := List.pairwise_cons.mp hcut.ended
      have hout : Cut out := ih ⟨hnes, hins, hends⟩
      refine ⟨List.forall_mem_cons.mpr ⟨hne, hout.ne_nil⟩,
        List.forall_mem_cons.mpr ⟨hin, hout.inside⟩, List.pairwise_cons.mpr ⟨?_, hout.ended⟩⟩
      -- If anything stands behind the line, a line stood behind it before.
      intro later hlater
      cases lines with
      | nil => exact absurd (hrest.eq_nil ▸ hlater) List.not_mem_nil
      | cons next lines => exact hend next List.mem_cons_self
  | @blank run lines out hrun _ ih =>
      have hout : Cut out := ih (hcut.sublist (List.sublist_append_right run lines))
      refine ⟨List.forall_mem_append.mpr ⟨fun line h => (replacement_line h).1, hout.ne_nil⟩,
        List.forall_mem_append.mpr ⟨fun line h => (replacement_line h).2.1, hout.inside⟩,
        List.pairwise_append.mpr ⟨?_, hout.ended, ?_⟩⟩
      · exact List.pairwise_of_forall_mem_list fun line h _ _ => (replacement_line h).2.2.1
      · exact fun line h _ _ => (replacement_line h).2.2.1

/-- **The lines of the new text** are those that stand for the lines of the old one. -/
theorem linesOf_collapse (text : List Char) (n : Nat) :
    linesOf (collapse text n).text = piecesOf n (linesOf text) :=
  linesOf_eq_iff.mpr
    ⟨flatten_piecesOf n (linesOf text), (shrunk_piecesOf n _).cut (cut_linesOf text)⟩

/-! ## The places of characters -/

/-- A position of a text is that of a character in a line that is not blank. -/
def InSolidLine (text : List Char) (i : Nat) : Prop :=
  ∃ before line after k, linesOf text = before ++ line :: after ∧ isBlankLine line = false ∧
    k < line.length ∧ i = before.flatten.length + k

/-- A character of a line that is not blank has a place in the new text, and what follows it has the
next place. -/
theorem InSolidLine.exists_place {i : Nat} (h : InSolidLine text i) (maxRun : Int) :
    ∃ j c, (collapse text maxRun).mapping[i]? = some j ∧
      (collapse text maxRun).mapping[i + 1]? = some (j + 1) ∧
      (collapse text maxRun).text[j]? = some c ∧ text[i]? = some c := by
  obtain ⟨before, whole, after, k, hlines, hsolid, hk, rfl⟩ := h
  refine ⟨(keptOf maxRun before).length + k, whole[k], getElem?_mapping_solid hlines hsolid
    (Nat.le_of_lt hk), getElem?_mapping_solid hlines hsolid hk, ?_, ?_⟩
  · show (keptOf maxRun (linesOf text))[(keptOf maxRun before).length + k]? = some whole[k]
    rw [hlines, keptOf_append_solid hsolid, List.getElem?_append_right (Nat.le_add_right _ _),
      Nat.add_sub_cancel_left, List.getElem?_append_left hk, List.getElem?_eq_getElem hk]
  · rw [← flatten_linesOf text, hlines, List.flatten_append, List.flatten_cons,
      List.getElem?_append_right (Nat.le_add_right _ _), Nat.add_sub_cancel_left,
      List.getElem?_append_left hk, List.getElem?_eq_getElem hk]

theorem mapping_ascending {i j a b : Nat} (hij : i ≤ j)
    (hi : (collapse text maxRun).mapping[i]? = some a)
    (hj : (collapse text maxRun).mapping[j]? = some b) : a ≤ b := by
  obtain ⟨hi', rfl⟩ := List.getElem?_eq_some_iff.mp hi
  obtain ⟨hj', rfl⟩ := List.getElem?_eq_some_iff.mp hj
  rcases Nat.lt_or_eq_of_le hij with hlt | rfl
  · exact List.pairwise_iff_getElem.mp (positionsFrom_ascending maxRun 0 _) i j hi' hj' hlt
  · exact Nat.le_refl _

/-- Nothing later shares the place of a character of a line that is not blank. -/
theorem InSolidLine.place_lt {i j a b : Nat} (h : InSolidLine text i) (hij : i < j)
    (hi : (collapse text maxRun).mapping[i]? = some a)
    (hj : (collapse text maxRun).mapping[j]? = some b) : a < b := by
  obtain ⟨a', c, hplace, hnext, -⟩ := h.exists_place maxRun
  obtain rfl : a' = a := Option.some.inj (hplace.symm.trans hi)
  exact mapping_ascending hij hnext hj

/-- The end of the text goes to the end of the new text. -/
theorem getElem?_mapping_length (text : List Char) (maxRun : Int) :
    (collapse text maxRun).mapping[text.length]? = some (collapse text maxRun).text.length := by
  have hend : (collapse text maxRun).mapping[(linesOf text).flatten.length + 0]? =
      (positionsFrom maxRun (keptOf maxRun (linesOf text)).length [])[0]? :=
    getElem?_mapping (List.append_nil _).symm 0
  rw [flatten_linesOf] at hend
  exact hend

/-- **Shrinking blank lines** to at most `n` a run.  The lines of a text are its cut after each
newline, and the terminator of a line is the longest that it ends with; the lines of the new text
are those of the old one, except that the terminators of its first `n` lines stand for each maximal
run of blank lines.  Each old position has a new one, in order, and the end goes to the end; a
character of a line that is not blank finds itself at its new place, which it shares with no other
such character, and the characters of a blank run go where the replacement of the run begins. -/
theorem collapse_shrinks (text : List Char) (n : Nat) :
    (∀ whole : List Char, (linesOf whole).flatten = whole ∧ Cut (linesOf whole)) ∧
    (∀ line : List Char, terminator line ∈ terminators ∧ terminator line <:+ line ∧
      ∀ t ∈ terminators, t <:+ line → t.length ≤ (terminator line).length) ∧
    Shrunk n (linesOf text) (linesOf (collapse text n).text) ∧
    (linesOf (collapse text n).text).filter (!isBlankLine ·) =
      (linesOf text).filter (!isBlankLine ·) ∧
    (collapse text n).mapping.length = text.length + 1 ∧
    (collapse text n).mapping.Pairwise (· ≤ ·) ∧
    (collapse text n).mapping[text.length]? = some (collapse text n).text.length ∧
    (∀ i, InSolidLine text i → ∃ j c, (collapse text n).mapping[i]? = some j ∧
      (collapse text n).text[j]? = some c ∧ text[i]? = some c) ∧
    (∀ i j, InSolidLine text i → InSolidLine text j →
      (collapse text n).mapping[i]? = (collapse text n).mapping[j]? → i = j) ∧
    ∀ before run after, linesOf text = before ++ run ++ after → BlankRun before run after →
      ∃ first last, Shrunk n before first ∧ Shrunk n after last ∧
        linesOf (collapse text n).text = first ++ replacement n run ++ last ∧
        ∀ k, k < run.flatten.length →
          (collapse text n).mapping[before.flatten.length + k]? = some first.flatten.length := by
  have hshrunk : Shrunk n (linesOf text) (linesOf (collapse text n).text) := by
    rw [linesOf_collapse]
    exact shrunk_piecesOf n _
  refine ⟨fun whole => ⟨flatten_linesOf whole, cut_linesOf whole⟩,
    fun line => ⟨terminator_mem line, terminator_longest line⟩, hshrunk, hshrunk.filter_solid,
    length_mapping_collapse text n, positionsFrom_ascending n 0 _,
    getElem?_mapping_length text n, ?_, ?_, ?_⟩
  · intro i hi
    obtain ⟨j, c, hplace, -, hnew, hold⟩ := hi.exists_place n
    exact ⟨j, c, hplace, hnew, hold⟩
  · intro i j hi hj heq
    obtain ⟨a, -, hia, -⟩ := hi.exists_place n
    have hja : (collapse text n).mapping[j]? = some a := heq.symm.trans hia
    rcases Nat.lt_trichotomy i j with hlt | rfl | hgt
    · exact absurd (hi.place_lt hlt hia hja) (Nat.lt_irrefl a)
    · rfl
    · exact absurd (hj.place_lt hgt hja hia) (Nat.lt_irrefl a)
  · intro before run after hlines hrun
    refine ⟨piecesOf n before, piecesOf n after, shrunk_piecesOf n before, shrunk_piecesOf n after,
      ?_, ?_⟩
    · rw [linesOf_collapse, hlines, hrun.piecesOf_append]
    · intro k hk
      rw [hrun.getElem?_mapping hlines hk, flatten_piecesOf]

/-- A run of three blank lines of which one is kept, with its own terminator. -/
example : (collapse "a\n \r\n\n\nb".toList 1).text = "a\n\r\nb".toList ∧
    (collapse "a\n \r\n\n\nb".toList 1).mapping = [0, 1, 2, 2, 2, 2, 2, 4, 5] := by
  decide

end CodeChallenges.BlankLines
