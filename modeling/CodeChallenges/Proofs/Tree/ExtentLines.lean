import CodeChallenges.Language.BuiltIn
import CodeChallenges.Proofs.LineMap.Spans
import CodeChallenges.Proofs.Tree.Nested
/-!
# The lines of extents

The extent of a comment or an import takes its last line from the end of its node, the byte after
it.  The span that the map of the file gives to the same bytes takes it from the last byte.  A
newline byte belongs to the line that it ends, so the two rows differ by the last byte alone
(`rowAt_succ`): they agree unless the node ends with a newline byte, and then the extent reaches one
line further (`extents_on_lines_iff`).

There are such nodes.  In some grammars a comment up to the end of a line includes the newline byte
(`comment_reaches_next_line`).
-/

namespace CodeChallenges.Tree

/-- A newline byte ends its row. -/
theorem rowAt_succ (source : List UInt8) (k : Nat) :
    rowAt source (k + 1) =
      rowAt source k + if source[k]? = some newlineByte then 1 else 0 := by
  rw [rowAt, List.take_add_one, List.count_append, rowAt]
  cases source[k]? with
  | none => simp
  | some b => simp [List.count_singleton]

/-- The row of the byte after a span is that of its last byte, or the next one after a newline byte.
-/
theorem rowAt_stop (source : List UInt8) {s : Span} (h : s.start < s.stop) :
    rowAt source s.stop =
      rowAt source s.lastByte + if source[s.stop - 1]? = some newlineByte then 1 else 0 := by
  rw [Span.lastByte, if_pos h, ← rowAt_succ, Nat.sub_add_cancel (by omega)]

namespace Node

variable {source : List UInt8}

/-- The lines of the span of a node are those of its first byte and of the byte after it. -/
theorem span?_lines {n : Node} {s : Span} (h : n.span? source = some s) :
    s.firstLine = rowAt source s.start + 1 ∧ s.lastLine = rowAt source s.stop + 1 := by
  unfold span? at h
  split at h
  · cases h
    exact ⟨rfl, rfl⟩
  · cases h

/-- The span of a node of the file is on the lines of its bytes exactly if its last byte is no
newline byte. -/
theorem span?_onLinesOf_iff {n : Node} {s : Span} (h : n.span? source = some s)
    (hn : n.stop ≤ source.length) :
    s.OnLinesOf source ↔ source[s.stop - 1]? ≠ some newlineByte := by
  obtain ⟨hstart, hstop, hlt⟩ := span?_eq_some h
  obtain ⟨hfirst, hlast⟩ := span?_lines h
  rw [rowAt_stop source (by omega)] at hlast
  constructor
  · intro hs hnewline
    rw [if_pos hnewline, hs.lastLine_eq] at hlast
    omega
  · intro hnot
    rw [if_neg hnot] at hlast
    exact ⟨by omega, hfirst, hlast⟩

/-- Beside the span of the same bytes, the span of a node has the same first line, and it reaches
one line further if its last byte is a newline byte. -/
theorem lines_of_span? {n : Node} {s t : Span} (h : n.span? source = some s)
    (ht : t.OnLinesOf source) (hrange : t.range = s.range) :
    t.firstLine = s.firstLine ∧
      s.lastLine = t.lastLine + if source[s.stop - 1]? = some newlineByte then 1 else 0 := by
  obtain ⟨hstart, hstop, hlt⟩ := span?_eq_some h
  obtain ⟨hfirst, hlast⟩ := span?_lines h
  obtain ⟨htstart, htstop⟩ := Prod.mk.inj hrange
  constructor
  · rw [ht.firstLine_eq, htstart, hfirst]
  · rw [hlast, ← htstop, rowAt_stop source (by omega), ht.lastLine_eq]
    omega

/-- **The extents of comments and imports** have spans in the map of the file, with the same bytes
and the same first line.  They are these spans exactly if their last byte is no newline byte; the
others reach one line further. -/
theorem extents_on_lines_iff {root : Node} (h : root.Within source.length) (l : Language) {s : Span}
    (hs : s ∈ root.comments source l ++ root.imports source l) :
    ∃ t, (LineMap.ofBytes source).span s.start s.stop = .ok t ∧ t.range = s.range ∧
      t.firstLine = s.firstLine ∧
      s.lastLine = t.lastLine + (if source[s.stop - 1]? = some newlineByte then 1 else 0) ∧
      (s = t ↔ source[s.stop - 1]? ≠ some newlineByte) := by
  obtain ⟨n, hn, hspan⟩ : ∃ n ∈ root.preorder, n.span? source = some s := by
    rcases List.mem_append.mp hs with hcomment | himport
    · exact exists_of_mem_sorted_extents hcomment
    · exact exists_of_mem_sorted_extents himport
  obtain ⟨-, hstop, -⟩ := span?_eq_some hspan
  have hle : n.stop ≤ source.length := (h n hn).2
  obtain ⟨t, ht⟩ : ∃ t, (LineMap.ofBytes source).span s.start s.stop = .ok t :=
    LineMap.exists_span_eq_ok s.start_le_stop (by omega)
  obtain ⟨htstart, htstop, hlines⟩ := LineMap.span_eq_ok ht
  have hrange : t.range = s.range := by
    rw [Span.range, Span.range, Int.ofNat.inj htstart, Int.ofNat.inj htstop]
  obtain ⟨hfirst, hlast⟩ := lines_of_span? hspan hlines hrange
  refine ⟨t, ht, hrange, hfirst, hlast, ?_⟩
  rw [← span?_onLinesOf_iff hspan hle]
  constructor
  · rintro rfl
    exact hlines
  · intro hs
    exact hs.eq_of_range_eq hlines hrange.symm

/-! ## A comment with and without the end of its line -/

/-- A comment up to the end of its line, and a number on the next line. -/
def remarkContent : List UInt8 := [0x3b, 0x20, 0x63, newlineByte, 0x31, newlineByte]

/-- The tree of this file, with the place where the comment ends: before its newline byte in some
grammars, and after it in others. -/
def remarkTree (stop : Nat) : Node :=
  let node (id : Nat) (kind : String) (start stop : Nat) :=
    Node.mk ⟨id, kind, start, stop, true, false, none⟩
  node 0 "source" 0 6 [node 1 "comment" 0 stop [], node 2 "num_lit" 4 5 []]

theorem remarkTree_nested {stop : Nat} (h : stop ≤ 4) : (remarkTree stop).Nested := by
  have hsix : stop ≤ 6 := by omega
  refine .mk (by decide) ?_ ?_ ?_
  · refine List.forall_mem_cons.mpr ⟨?_, List.forall_mem_singleton.mpr (by decide)⟩
    exact ⟨Nat.zero_le _, hsix⟩
  · exact List.pairwise_pair.mpr h
  · exact List.forall_mem_cons.mpr
      ⟨.leaf (Nat.zero_le _), List.forall_mem_singleton.mpr (.leaf (by decide))⟩

/-- Without its newline byte, the comment has the lines of its bytes. -/
theorem extents_on_lines_iff_sample :
    (remarkTree 3).Within remarkContent.length ∧
    .ofSizes 0 3 0 0 ∈ (remarkTree 3).comments remarkContent BuiltIn.clojure ++
      (remarkTree 3).imports remarkContent BuiltIn.clojure ∧
    (LineMap.ofBytes remarkContent).span 0 3 = .ok (.ofSizes 0 3 0 0) := by
  have hnested : (remarkTree 3).Nested := remarkTree_nested (by decide)
  have hwithin : (remarkTree 3).Within remarkContent.length := hnested.within (by decide)
  have hmem : .ofSizes 0 3 0 0 ∈ (remarkTree 3).comments remarkContent BuiltIn.clojure ++
      (remarkTree 3).imports remarkContent BuiltIn.clojure := by
    rw [comments, sorted_extents hnested]
    exact List.mem_append_left _ (by decide)
  obtain ⟨t, ht, -, -, -, heq⟩ := extents_on_lines_iff hwithin BuiltIn.clojure hmem
  exact ⟨hwithin, hmem, by rw [heq.mpr (by decide)]; exact ht⟩

/-- With its newline byte, the comment is told to end on the second line, although all its bytes are
on the first. -/
theorem comment_reaches_next_line :
    (remarkTree 4).WellFormed remarkContent ∧
    ∃ s ∈ (remarkTree 4).comments remarkContent BuiltIn.clojure, s.range = (0, 4) ∧
      s.lastLine = 2 ∧
      ∃ t, (LineMap.ofBytes remarkContent).span s.start s.stop = .ok t ∧ t.lastLine = 1 := by
  have hnested : (remarkTree 4).Nested := remarkTree_nested (Nat.le_refl 4)
  refine ⟨⟨hnested, by decide +kernel, by decide +kernel⟩, .ofSizes 0 4 0 1, ?_, rfl, rfl, ?_⟩
  · rw [comments, sorted_extents hnested]
    decide
  · obtain ⟨t, ht⟩ : ∃ t, (LineMap.ofBytes remarkContent).span (0 : Nat) (4 : Nat) = .ok t :=
      LineMap.exists_span_eq_ok (Nat.zero_le 4) (by decide)
    obtain ⟨hstart, hstop, hlines⟩ := LineMap.span_eq_ok ht
    have hbyte : t.lastByte = 3 := by
      unfold Span.lastByte
      split <;> omega
    refine ⟨t, ht, ?_⟩
    rw [hlines.lastLine_eq, hbyte]
    decide

end Node

end CodeChallenges.Tree
