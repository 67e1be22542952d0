import CodeChallenges.Proofs.BlankLines.Shrinking
/-!
# Shrinking twice

The lines of a new text are in runs again: the replacement of a blank run is a blank run between the
same neighbours, or nothing.  No unended line is followed by another, so cutting such a replacement
down once more cuts the run down to the smaller of the two bounds (`replacement_replacement`).  The
places go along: a position of a blank run is sent to the beginning of what replaces it, be that
nothing, and from there to the beginning of what follows.  By induction on the runs the map of the
second text, read at the places that the first map gives, is the map of shrinking once
(`collapse_collapse`).
-/

namespace CodeChallenges.BlankLines

variable {m n : Nat} {run lines : List (List Char)}

/-! ## Replacements of replacements -/

/-- If only the last item can fail a test, then dropping it and taking some first items can be done in
either order. -/
theorem filter_take_of_pairwise {α : Type} {p : α → Bool} {items : List α}
    (h : items.Pairwise fun a _ => p a = true) (n : Nat) :
    (items.take n).filter p = (items.filter p).take n := by
  induction items generalizing n with
  | nil => rw [List.take_nil, List.filter_nil, List.take_nil]
  | cons a items ih =>
      obtain ⟨hhead, htail⟩ := List.pairwise_cons.mp h
      cases n with
      | zero => rfl
      | succ n =>
          cases ha : p a with
          | true =>
              rw [List.take_succ_cons, List.filter_cons_of_pos ha, List.filter_cons_of_pos ha,
                List.take_succ_cons, ih htail]
          | false =>
              -- Nothing can stand behind an item that fails.
              have hlast : items = [] := by
                refine List.eq_nil_iff_forall_not_mem.mpr fun b hb => ?_
                rw [hhead b hb] at ha
                cases ha
              rw [hlast, List.take_succ_cons, List.take_nil]
              have hnone : List.filter p [a] = [] :=
                List.filter_cons_of_neg (by rw [ha]; exact Bool.false_ne_true)
              rw [hnone, List.take_nil]

theorem replacement_nil (n : Nat) : replacement n [] = [] := by
  rw [replacement, List.take_nil, List.map_nil, List.filter_nil]

/-- A terminator ends itself. -/
theorem terminator_of_mem {t : List Char} (h : t ∈ terminators) : terminator t = t := by
  revert t
  decide

theorem terminator_replacement {line : List Char} (h : line ∈ replacement m run) :
    terminator line = line := by
  obtain ⟨whole, -, rfl⟩ := List.mem_map.mp (List.mem_filter.mp h).1
  exact terminator_of_mem (terminator_mem whole)

/-- A line that a newline ends has a terminator. -/
theorem terminator_ne_nil {line : List Char} (h : line.getLast? = some '\n') :
    terminator line ≠ [] := by
  intro hnil
  obtain ⟨front, rfl⟩ := List.getLast?_eq_some_iff.mp h
  have hlongest := (terminator_longest (front ++ ['\n'])).2 ['\n'] (by decide)
    (List.suffix_append front ['\n'])
  rw [hnil] at hlongest
  exact absurd hlongest (by decide)

/-- **Cutting a blank run down twice** cuts it down to the smaller bound. -/
theorem replacement_replacement (h : Cut run) :
    replacement n (replacement m run) = replacement (min m n) run := by
  have hended : (run.map terminator).Pairwise fun t _ => decide (t ≠ []) = true :=
    List.pairwise_map.mpr (h.ended.imp fun hend => decide_eq_true (terminator_ne_nil hend))
  have hsame : ((replacement m run).take n).map terminator = (replacement m run).take n :=
    (List.map_congr_left fun line hline =>
      terminator_replacement (List.mem_of_mem_take hline)).trans (List.map_id _)
  have hkept : ∀ line ∈ (replacement m run).take n, decide (line ≠ []) = true :=
    fun line hline => (List.mem_filter.mp (List.mem_of_mem_take hline)).2
  calc replacement n (replacement m run)
    _ = (replacement m run).take n := by
      rw [replacement, hsame, List.filter_eq_self.mpr hkept]
    _ = (((run.map terminator).filter (· ≠ [])).take m).take n := by
      rw [replacement, List.map_take, filter_take_of_pairwise hended]
    _ = replacement (min m n) run := by
      rw [List.take_take, Nat.min_comm, replacement, List.map_take,
        filter_take_of_pairwise hended]

/-! ## Runs of the new text -/

/-- The replacement of a blank run stands before the same line that is not blank. -/
theorem BlankRun.replaced (h : BlankRun [] run lines) (hne : replacement m run ≠ []) :
    BlankRun [] (replacement m run) (piecesOf m lines) := by
  refine ⟨hne, fun line hline => (replacement_line hline).2.2.2, h.before_solid, ?_⟩
  intro line hline
  cases lines with
  | nil => cases hline
  | cons next rest =>
      have hnext : isBlankLine next = false := h.after_solid next rfl
      rw [piecesOf_cons_solid hnext] at hline
      cases hline
      exact hnext

theorem BlankRun.runsOf_run (h : BlankRun [] run lines) :
    runsOf (run ++ lines) = .blank run :: runsOf lines :=
  h.runsOf_append

/-- The lines of a text that is shrunk twice are those of a text that is shrunk once. -/
theorem piecesOf_piecesOf (h : Cut lines) :
    piecesOf n (piecesOf m lines) = piecesOf (min m n) lines := by
  induction lines using runs_induction with
  | nil => rfl
  | solid line lines hline ih =>
      rw [piecesOf_cons_solid hline, piecesOf_cons_solid hline, piecesOf_cons_solid hline,
        ih (h.sublist (List.sublist_cons_self line lines))]
  | blank run lines hrun ih =>
      have hlater := ih (h.sublist (List.sublist_append_right run lines))
      have htwice := replacement_replacement (m := m) (n := n)
        (h.sublist (List.sublist_append_left run lines))
      rw [hrun.piecesOf_run, hrun.piecesOf_run, ← htwice, ← hlater]
      by_cases hne : replacement m run = []
      · rw [hne, replacement_nil, List.nil_append, List.nil_append]
      · exact (hrun.replaced hne).piecesOf_run

/-! ## Places of places -/

/-- Places `outer`, read at the places `inner` less `base`, are the places `both`. -/
def Follows (base : Nat) (inner outer both : List Nat) : Prop :=
  ∀ i p : Nat, inner[i]? = some p → base ≤ p ∧ outer[p - base]? = both[i]?

/-- Places can be followed piece by piece, where the places of the later pieces lie behind the first
piece. -/
theorem Follows.append {base : Nat} {inner inner' outer outer' both both' : List Nat}
    (h : Follows base inner (outer ++ outer') both)
    (h' : Follows (base + outer.length) inner' outer' both')
    (hlength : inner.length = both.length) :
    Follows base (inner ++ inner') (outer ++ outer') (both ++ both') := by
  intro i p hp
  by_cases hi : i < inner.length
  · rw [List.getElem?_append_left hi] at hp
    have hboth : (both ++ both')[i]? = both[i]? := List.getElem?_append_left (hlength ▸ hi)
    rw [hboth]
    exact h i p hp
  · rw [List.getElem?_append_right (Nat.le_of_not_lt hi), hlength] at hp
    obtain ⟨hbase, hplace⟩ := h' _ p hp
    rw [List.getElem?_append_right (by omega), List.getElem?_append_right (by omega), ← hplace]
    exact ⟨by omega, congrArg (outer'[·]?) (by omega)⟩

/-- The places of a line that stays are followed one by one. -/
theorem follows_solid (base base' : Nat) (line : List Char) (outer : List Nat) :
    Follows base ((Run.solid line).positions base) ((Run.solid line).positions base' ++ outer)
      ((Run.solid line).positions base') := by
  intro i p hp
  have hi : i < line.length := by
    have hlt := (List.getElem?_eq_some_iff.mp hp).1
    rwa [Run.length_positions] at hlt
  have hplace : ((Run.solid line).positions base)[i]? = some (base + i) :=
    (List.getElem?_range' hi).trans (by rw [Nat.one_mul])
  obtain rfl : p = base + i := Option.some.inj (hp.symm.trans hplace)
  rw [Nat.add_sub_cancel_left, List.getElem?_append_left (by rw [Run.length_positions]; exact hi)]
  exact ⟨Nat.le_add_right base i, rfl⟩

/-- All places of a blank run are followed to the beginning of what comes of it. -/
theorem follows_blank (base : Nat) {base' : Nat} {outer : List Nat} (run : List (List Char))
    (h : outer[0]? = some base') :
    Follows base ((Run.blank run).positions base) outer ((Run.blank run).positions base') := by
  intro i p hp
  obtain rfl : p = base := List.eq_of_mem_replicate (List.mem_of_getElem? hp)
  have hi : i < run.flatten.length := by
    have hlt := (List.getElem?_eq_some_iff.mp hp).1
    rwa [Run.length_positions] at hlt
  have hplace : ((Run.blank run).positions base')[i]? = some base' :=
    List.getElem?_replicate_of_lt hi
  rw [Nat.sub_self, h, hplace]
  exact ⟨Nat.le_refl p, rfl⟩

/-- The places of the second text begin with those of the replacement of its first run. -/
theorem BlankRun.positionsFrom_replaced (h : BlankRun [] run lines) (hcut : Cut run) (base : Nat) :
    ∃ first, first.length = ((Run.blank run).kept m).length ∧
      positionsFrom n base (runsOf (piecesOf m (run ++ lines))) =
        first ++ positionsFrom n (base + ((Run.blank run).kept (min m n : Nat)).length)
          (runsOf (piecesOf m lines)) := by
  rw [h.piecesOf_run, ← flatten_replacement, ← flatten_replacement, ← replacement_replacement hcut]
  by_cases hne : replacement m run = []
  · refine ⟨[], ?_, ?_⟩
    · rw [hne]
      rfl
    · rw [hne, replacement_nil, List.nil_append, List.nil_append]
      rfl
  · rw [(h.replaced hne).runsOf_run, positionsFrom, flatten_replacement n]
    exact ⟨_, Run.length_positions base (.blank (replacement m run)), rfl⟩

/-- The places of the lines of a text, followed through the lines of its shrunk form. -/
theorem follows_positionsFrom (h : Cut lines) (base base' : Nat) :
    Follows base (positionsFrom m base (runsOf lines))
      (positionsFrom n base' (runsOf (piecesOf m lines)))
      (positionsFrom (min m n : Nat) base' (runsOf lines)) := by
  induction lines using runs_induction generalizing base base' with
  | nil =>
      intro i p hp
      obtain rfl : p = base := List.mem_singleton.mp (List.mem_of_getElem? hp)
      have hi : i = 0 := Nat.lt_one_iff.mp (List.getElem?_eq_some_iff.mp hp).1
      rw [hi, Nat.sub_self]
      exact ⟨Nat.le_refl p, rfl⟩
  | solid line lines hline ih =>
      have hruns : ∀ later, runsOf (line :: later) = .solid line :: runsOf later :=
        fun later => addLine_of_solid hline (runsOf later)
      have hlater := ih (h.sublist (List.sublist_cons_self line lines)) (base + line.length)
        (base' + line.length)
      have hlength := (Run.solid line).length_positions
      rw [piecesOf_cons_solid hline, hruns, hruns]
      refine (follows_solid base base' line _).append ?_ ((hlength base).trans (hlength base').symm)
      rw [hlength base']
      exact hlater
  | blank run lines hrun ih =>
      have hlater := ih (h.sublist (List.sublist_append_right run lines))
        (base + ((Run.blank run).kept m).length)
        (base' + ((Run.blank run).kept (min m n : Nat)).length)
      have hlength := (Run.blank run).length_positions
      obtain ⟨first, hfirst, hplaces⟩ := hrun.positionsFrom_replaced (m := m) (n := n)
        (h.sublist (List.sublist_append_left run lines)) base'
      have hzero := positionsFrom_zero n base' (runsOf (piecesOf m (run ++ lines)))
      rw [hplaces] at hzero ⊢
      rw [hrun.runsOf_run]
      refine (follows_blank base run hzero).append ?_ ((hlength base).trans (hlength base').symm)
      rw [hfirst]
      exact hlater

/-- **Shrinking twice is shrinking once.**  Shrinking the blank runs of a text to at most `m` lines
and those of the new text to at most `n` gives the text with runs of at most the smaller number of
lines; and each position of the text, the end included, goes with the two maps, one after the other,
where it goes with the one map.  So shrinking again to the same number changes nothing. -/
theorem collapse_collapse (text : List Char) (m n : Nat) :
    (collapse (collapse text m).text n).text = (collapse text (min m n : Nat)).text ∧
    (∀ i, i ≤ text.length → ∃ j k,
      (collapse text m).mapping[i]? = some j ∧
      (collapse (collapse text m).text n).mapping[j]? = some k ∧
      (collapse text (min m n : Nat)).mapping[i]? = some k) ∧
    (collapse (collapse text n).text n).text = (collapse text n).text := by
  have htext : ∀ a b : Nat, (collapse (collapse text a).text b).text =
      (collapse text (min a b : Nat)).text := by
    intro a b
    calc keptOf b (linesOf (collapse text a).text)
      _ = (piecesOf b (piecesOf a (linesOf text))).flatten := by
        rw [linesOf_collapse, flatten_piecesOf]
      _ = keptOf (min a b : Nat) (linesOf text) := by
        rw [piecesOf_piecesOf (cut_linesOf text), flatten_piecesOf]
  refine ⟨htext m n, ?_, ?_⟩
  · intro i hi
    have hplace : ∀ a : Nat, ∃ j, (collapse text a).mapping[i]? = some j := by
      intro a
      have hlt : i < (collapse text a).mapping.length := by
        rw [length_mapping_collapse]
        exact Nat.lt_succ_of_le hi
      exact ⟨_, List.getElem?_eq_getElem hlt⟩
    obtain ⟨j, hj⟩ := hplace m
    obtain ⟨k, hk⟩ := hplace (min m n)
    have hfollow := (follows_positionsFrom (m := m) (n := n) (cut_linesOf text) 0 0 i j hj).2
    rw [← linesOf_collapse] at hfollow
    exact ⟨j, k, hj, hfollow.trans hk, hk⟩
  · rw [htext, Nat.min_self]

/-- A run of three blank lines, the last without an end, shrunk to two lines and then to one. -/
example : (collapse (collapse "a\n \r\n\n  ".toList 2).text 1).text = "a\n\r\n".toList ∧
    (collapse "a\n \r\n\n  ".toList 1).text = "a\n\r\n".toList := by
  decide

end CodeChallenges.BlankLines
