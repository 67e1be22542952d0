import CodeChallenges.Proofs.BlankLines.Lines
/-!
# Runs of blank lines

Lines fall into runs, and cutting lines between two runs cuts their runs (`runsOf_append`).  So what
stands for a line that is not blank, or for a maximal run of blank lines, can be read off without
its surroundings: what is kept of the lines before it comes before it, and the new places of its
characters begin where that ends (`getElem?_mapping`).
-/

namespace CodeChallenges.BlankLines

/-! ## Where runs end -/

/-- Lines `run` between `before` and `after` are a maximal run of blank lines. -/
structure BlankRun (before run after : List (List Char)) : Prop where
  ne_nil : run ≠ []
  blank : ∀ line ∈ run, isBlankLine line = true
  before_solid : ∀ line ∈ before.getLast?, isBlankLine line = false
  after_solid : ∀ line ∈ after.head?, isBlankLine line = false

variable {maxRun : Int} {line : List Char} {before run after lines : List (List Char)}

theorem addLine_of_solid (h : isBlankLine line = false) (runs : List Run) :
    addLine line runs = .solid line :: runs :=
  if_neg (by rw [h]; exact Bool.false_ne_true)

/-- A blank line goes on with a blank run that follows it. -/
theorem addLine_of_blank (h : isBlankLine line = true) (lines : List (List Char))
    (runs : List Run) : addLine line (.blank lines :: runs) = .blank (line :: lines) :: runs :=
  if_pos h

theorem addLine_ne_nil (line : List Char) (runs : List Run) : addLine line runs ≠ [] := by
  unfold addLine
  split
  · split
    · exact List.cons_ne_nil _ _
    · exact List.cons_ne_nil _ _
  · exact List.cons_ne_nil _ _

/-- Adding a line looks at the first run only. -/
theorem addLine_append (line : List Char) {runs : List Run} (h : runs ≠ []) (more : List Run) :
    addLine line (runs ++ more) = addLine line runs ++ more := by
  unfold addLine
  split
  · cases runs with
    | nil => exact absurd rfl h
    | cons first rest => cases first <;> rfl
  · rfl

/-- A blank line begins a run where no blank line follows. -/
theorem addLine_runsOf (h : isBlankLine line = true)
    (hafter : ∀ next ∈ after.head?, isBlankLine next = false) :
    addLine line (runsOf after) = .blank [line] :: runsOf after := by
  cases after with
  | nil => exact if_pos h
  | cons next rest =>
      have hruns : runsOf (next :: rest) = .solid next :: runsOf rest :=
        addLine_of_solid (hafter next rfl) _
      rw [hruns]
      exact if_pos h

/-- Between two lines that are not both blank no run goes on. -/
theorem runsOf_append (h : (∀ line ∈ before.getLast?, isBlankLine line = false) ∨
      ∀ line ∈ after.head?, isBlankLine line = false) :
    runsOf (before ++ after) = runsOf before ++ runsOf after := by
  induction before with
  | nil => rfl
  | cons line before ih =>
      cases before with
      | nil =>
          show addLine line (runsOf after) = addLine line [] ++ runsOf after
          cases hline : isBlankLine line with
          | false => rw [addLine_of_solid hline, addLine_of_solid hline, List.singleton_append]
          | true =>
              rcases h with h | h
              · exact absurd hline (by rw [h line rfl]; exact Bool.false_ne_true)
              · have halone : addLine line [] = [.blank [line]] := if_pos hline
                rw [addLine_runsOf hline h, halone, List.singleton_append]
      | cons next before =>
          rw [List.getLast?_cons_of_ne_nil (List.cons_ne_nil _ _)] at h
          show addLine line (runsOf (next :: before ++ after)) =
            addLine line (runsOf (next :: before)) ++ runsOf after
          rw [ih h]
          exact addLine_append line (addLine_ne_nil next _) _

theorem runsOf_blank (hne : run ≠ []) (hblank : ∀ line ∈ run, isBlankLine line = true) :
    runsOf run = [.blank run] := by
  induction run with
  | nil => exact absurd rfl hne
  | cons line run ih =>
      obtain ⟨hline, hrun⟩ := List.forall_mem_cons.mp hblank
      show addLine line (runsOf run) = [.blank (line :: run)]
      cases run with
      | nil => exact if_pos hline
      | cons next run => rw [ih (List.cons_ne_nil _ _) hrun, addLine_of_blank hline]

theorem runsOf_append_solid (h : isBlankLine line = false) :
    runsOf (before ++ line :: after) = runsOf before ++ .solid line :: runsOf after := by
  have hhead : ∀ next ∈ (line :: after).head?, isBlankLine next = false := by
    rintro next ⟨⟩
    exact h
  rw [runsOf_append (.inr hhead)]
  exact congrArg (runsOf before ++ ·) (addLine_of_solid h _)

theorem BlankRun.runsOf_append (h : BlankRun before run after) :
    runsOf (before ++ run ++ after) = runsOf before ++ .blank run :: runsOf after := by
  have hhead : ∀ line ∈ before.getLast?, isBlankLine line = false := h.before_solid
  rw [BlankLines.runsOf_append (.inr h.after_solid), BlankLines.runsOf_append (.inl hhead),
    runsOf_blank h.ne_nil h.blank, List.append_assoc, List.singleton_append]

/-! ## What is kept -/

/-- What stands for lines in the new text. -/
def keptOf (maxRun : Int) (lines : List (List Char)) : List Char :=
  (runsOf lines).flatMap (Run.kept maxRun)

theorem keptOf_append_solid (h : isBlankLine line = false) :
    keptOf maxRun (before ++ line :: after) =
      keptOf maxRun before ++ (line ++ keptOf maxRun after) := by
  simp only [keptOf, runsOf_append_solid h, List.flatMap_append, List.flatMap_cons, Run.kept]

theorem keptOf_cons_solid (h : isBlankLine line = false) :
    keptOf maxRun (line :: after) = line ++ keptOf maxRun after :=
  congrArg (List.flatMap (Run.kept maxRun)) (addLine_of_solid h (runsOf after))

/-! ## New places -/

/-- A run without characters leaves nothing. -/
theorem Run.kept_eq_nil {run : Run} (h : run.oldLength = 0) : run.kept maxRun = [] := by
  cases run with
  | solid line => exact List.length_eq_zero_iff.mp h
  | blank lines =>
      have hempty := List.flatten_eq_nil_iff.mp (List.length_eq_zero_iff.mp h)
      refine List.flatMap_eq_nil_iff.mpr ?_
      intro line hline
      rw [hempty line (List.mem_of_mem_take hline)]
      rfl

/-- The first new place is the place of the first run. -/
theorem positionsFrom_zero (maxRun : Int) (base : Nat) (runs : List Run) :
    (positionsFrom maxRun base runs)[0]? = some base := by
  induction runs generalizing base with
  | nil => rfl
  | cons run runs ih =>
      rw [positionsFrom]
      by_cases hlen : run.oldLength = 0
      · have hnone : run.positions base = [] :=
          List.length_eq_zero_iff.mp ((run.length_positions base).trans hlen)
        rw [hnone, Run.kept_eq_nil hlen]
        exact ih base
      · rw [List.getElem?_append_left (by rw [Run.length_positions]; omega)]
        cases run with
        | solid line => exact List.getElem?_range' (Nat.pos_of_ne_zero hlen)
        | blank lines => exact List.getElem?_replicate_of_lt (Nat.pos_of_ne_zero hlen)

/-- The new places of later runs begin where what is kept of the runs before them ends. -/
theorem getElem?_positionsFrom_append (maxRun : Int) (base : Nat) (runs more : List Run) (k : Nat) :
    (positionsFrom maxRun base (runs ++ more))[(runs.map Run.oldLength).sum + k]? =
      (positionsFrom maxRun (base + (runs.flatMap (Run.kept maxRun)).length) more)[k]? := by
  induction runs generalizing base with
  | nil => simp
  | cons run runs ih =>
      rw [List.cons_append, positionsFrom, List.map_cons, List.sum_cons, List.flatMap_cons,
        List.length_append, List.getElem?_append_right (by rw [Run.length_positions]; omega),
        Run.length_positions, Nat.add_assoc, Nat.add_sub_cancel_left, ih, Nat.add_assoc]

/-- The new places behind some lines. -/
theorem getElem?_mapping {text : List Char} {runs : List Run}
    (h : runsOf (linesOf text) = runsOf before ++ runs) (k : Nat) :
    (collapse text maxRun).mapping[before.flatten.length + k]? =
      (positionsFrom maxRun (keptOf maxRun before).length runs)[k]? := by
  show (positionsFrom maxRun 0 (runsOf (linesOf text)))[before.flatten.length + k]? = _
  rw [h, ← sum_oldLength_runsOf, getElem?_positionsFrom_append, Nat.zero_add]
  rfl

/-- The characters of a line that is not blank go on one after the other, and what follows it
comes right after. -/
theorem getElem?_mapping_solid {text : List Char} (hlines : linesOf text = before ++ line :: after)
    (hsolid : isBlankLine line = false) {k : Nat} (hk : k ≤ line.length) :
    (collapse text maxRun).mapping[before.flatten.length + k]? =
      some ((keptOf maxRun before).length + k) := by
  rw [getElem?_mapping (hlines ▸ runsOf_append_solid hsolid), positionsFrom]
  have hlen : ((Run.solid line).positions (keptOf maxRun before).length).length = line.length :=
    Run.length_positions _ _
  rcases Nat.lt_or_eq_of_le hk with hlt | rfl
  · rw [List.getElem?_append_left (by omega)]
    exact (List.getElem?_range' hlt).trans (by rw [Nat.one_mul])
  · rw [List.getElem?_append_right (by omega), hlen, Nat.sub_self, positionsFrom_zero]
    rfl

/-- The characters of a blank run go where its replacement begins. -/
theorem BlankRun.getElem?_mapping {text : List Char} (h : BlankRun before run after)
    (hlines : linesOf text = before ++ run ++ after) {k : Nat} (hk : k < run.flatten.length) :
    (collapse text maxRun).mapping[before.flatten.length + k]? =
      some (keptOf maxRun before).length := by
  rw [BlankLines.getElem?_mapping (hlines ▸ h.runsOf_append), positionsFrom,
    List.getElem?_append_left (by rw [Run.length_positions]; exact hk)]
  exact List.getElem?_replicate_of_lt hk

end CodeChallenges.BlankLines
