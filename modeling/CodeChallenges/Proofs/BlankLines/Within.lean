import CodeChallenges.Proofs.BlankLines.Runs
/-!
# A piece of a text

A piece of a text that begins and ends with characters that are not blank begins and ends inside
lines that are not blank, whatever stands around it.  So no blank run reaches over its ends: what
becomes of the piece alone stands in what becomes of the text, and the map of the text sends the
ends of the piece there (`collapse_within`).
-/

namespace CodeChallenges.BlankLines

variable {maxRun : Int} {line text : List Char} {lines : List (List Char)} {c : Char}

/-- A text begins and ends with characters that are not blank. -/
structure SolidEnds (text : List Char) : Prop where
  head : ∃ c ∈ text.head?, Text.isBlank c = false
  last : ∃ c ∈ text.getLast?, Text.isBlank c = false

theorem isBlankLine_eq_false (hmem : c ∈ line) (hc : Text.isBlank c = false) :
    isBlankLine line = false :=
  List.all_eq_false.mpr ⟨c, hmem, by rw [hc]; exact Bool.false_ne_true⟩

/-- Lines that are not blank are kept. -/
theorem keptOf_solid (h : ∀ line ∈ lines, isBlankLine line = false) :
    keptOf maxRun lines = lines.flatten := by
  induction lines with
  | nil => rfl
  | cons line lines ih =>
      obtain ⟨hline, hlines⟩ := List.forall_mem_cons.mp h
      rw [keptOf_cons_solid hline, ih hlines, List.flatten_cons]

/-- A text without blank lines stays as it is. -/
theorem collapse_of_solid (h : ∀ line ∈ linesOf text, isBlankLine line = false) :
    (collapse text maxRun).text = text :=
  (keptOf_solid h).trans (flatten_linesOf text)

/-- What stands before a text has its own new form, the same for each text that begins with a
character that is not blank. -/
theorem collapse_append (maxRun : Int) (front : List Char) :
    ∃ start, ∀ {text c}, c ∈ text.head? → Text.isBlank c = false →
      (collapse (front ++ text) maxRun).text = start ++ (collapse text maxRun).text ∧
      (collapse (front ++ text) maxRun).mapping[front.length]? = some start.length := by
  obtain ⟨before, start, rfl, hlines⟩ := exists_linesOf_append front
  refine ⟨keptOf maxRun before ++ start, ?_⟩
  intro text c hhead hc
  obtain ⟨tail, rfl⟩ := List.head?_eq_some_iff.mp hhead
  obtain ⟨line, rest, hown⟩ := exists_linesOf_cons c tail
  have hwhole := hlines hown
  have hsolid : isBlankLine (c :: line) = false := isBlankLine_eq_false List.mem_cons_self hc
  have hjoined : isBlankLine (start ++ c :: line) = false :=
    isBlankLine_eq_false (List.mem_append_right start List.mem_cons_self) hc
  constructor
  · calc keptOf maxRun (linesOf (before.flatten ++ start ++ c :: tail))
      _ = keptOf maxRun before ++ (start ++ c :: line ++ keptOf maxRun rest) := by
        rw [hwhole, keptOf_append_solid hjoined]
      _ = keptOf maxRun before ++ start ++ keptOf maxRun (linesOf (c :: tail)) := by
        rw [hown, keptOf_cons_solid hsolid, List.append_assoc, List.append_assoc]
  · have hstart : start.length ≤ (start ++ c :: line).length :=
      (List.prefix_append start _).length_le
    rw [List.length_append, List.length_append]
    exact getElem?_mapping_solid hwhole hjoined hstart

/-- What stands after a text that ends with a character that is not blank does not change the new
form of the text. -/
theorem collapse_append_right (maxRun : Int) (hlast : c ∈ text.getLast?)
    (hc : Text.isBlank c = false) (back : List Char) :
    ∃ stop, (collapse (text ++ back) maxRun).text = (collapse text maxRun).text ++ stop ∧
      (collapse (text ++ back) maxRun).mapping[text.length]? =
        some (collapse text maxRun).text.length := by
  have hne : c ≠ '\n' := by
    rintro rfl
    exact absurd hc (by decide)
  obtain ⟨before, line, stop, after, hown, hwhole⟩ := exists_linesOf_append_right hlast hne back
  have hmem : c ∈ line ++ [c] := List.mem_append_right line List.mem_cons_self
  have hsolid : isBlankLine (line ++ [c]) = false := isBlankLine_eq_false hmem hc
  have hjoined : isBlankLine (line ++ [c] ++ stop) = false :=
    isBlankLine_eq_false (List.mem_append_left stop hmem) hc
  have hnew : (collapse text maxRun).text = keptOf maxRun before ++ (line ++ [c]) := by
    show keptOf maxRun (linesOf text) = _
    rw [hown, keptOf_append_solid hsolid]
    exact congrArg (keptOf maxRun before ++ ·) (List.append_nil _)
  have hlength : text.length = before.flatten.length + (line ++ [c]).length := by
    rw [← flatten_linesOf text, hown, List.flatten_append, List.flatten_singleton,
      List.length_append]
  have hlength' : (collapse text maxRun).text.length =
      (keptOf maxRun before).length + (line ++ [c]).length := by
    rw [hnew, List.length_append]
  refine ⟨stop ++ keptOf maxRun after, ?_, ?_⟩
  · calc keptOf maxRun (linesOf (text ++ back))
      _ = keptOf maxRun before ++ (line ++ [c] ++ stop ++ keptOf maxRun after) := by
        rw [hwhole, keptOf_append_solid hjoined]
      _ = (collapse text maxRun).text ++ (stop ++ keptOf maxRun after) := by
        simp only [hnew, List.append_assoc]
  · have hend : (line ++ [c]).length ≤ (line ++ [c] ++ stop).length :=
      (List.prefix_append _ stop).length_le
    rw [hlength, hlength']
    exact getElem?_mapping_solid hwhole hjoined hend

/-- **Shrinking commutes with slicing** at characters that are not blank. -/
theorem collapse_within (maxRun : Int) (h : SolidEnds text) (front back : List Char) :
    ∃ start stop,
      (collapse (front ++ text ++ back) maxRun).text =
        start ++ (collapse text maxRun).text ++ stop ∧
      (collapse (front ++ text ++ back) maxRun).mapping[front.length]? = some start.length ∧
      (collapse (front ++ text ++ back) maxRun).mapping[(front ++ text).length]? =
        some (start ++ (collapse text maxRun).text).length := by
  obtain ⟨first, hfirst, hfirst'⟩ := h.head
  obtain ⟨last, hlast, hlast'⟩ := h.last
  have hfirstBack : first ∈ (text ++ back).head? := by
    rw [List.head?_append, hfirst]
    rfl
  have hlastFront : last ∈ (front ++ text).getLast? := by
    rw [List.getLast?_append, hlast]
    rfl
  obtain ⟨start, hstart⟩ := collapse_append maxRun front
  obtain ⟨stop, hstop, hend⟩ := collapse_append_right maxRun hlastFront hlast' back
  refine ⟨start, stop, ?_, ?_, ?_⟩
  · rw [hstop, (hstart hfirst hfirst').1]
  · rw [List.append_assoc]
    exact (hstart hfirstBack hfirst').2
  · rw [hend, (hstart hfirst hfirst').1]

end CodeChallenges.BlankLines
