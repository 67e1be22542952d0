import CodeChallenges.Path
import Mathlib.Data.List.Basic
/-!
# Names and paths

Names without slashes can be joined to a path and read back from it (`segments_join`).  The paths of
files in a repository are made of such names, so that a path is as good as its segments.
-/

namespace CodeChallenges

/-! ## Pieces -/

namespace Text

theorem splitOnChar_of_not_mem {sep : Char} {cs : List Char} (h : sep ∉ cs) :
    splitOnChar sep cs = [cs] := by
  induction cs with
  | nil => rfl
  | cons c cs ih =>
      have hc : (c == sep) = false := by
        rw [beq_eq_false_iff_ne]
        exact fun heq => h (heq ▸ List.mem_cons_self)
      show addToPieces sep c (splitOnChar sep cs) = [c :: cs]
      rw [ih (fun hmem => h (List.mem_cons_of_mem c hmem)), addToPieces, hc]
      rfl

/-- A piece ends where the separator stands. -/
theorem splitOnChar_append_cons {sep : Char} {piece : List Char} (h : sep ∉ piece)
    (rest : List Char) :
    splitOnChar sep (piece ++ sep :: rest) = piece :: splitOnChar sep rest := by
  induction piece with
  | nil =>
      show addToPieces sep sep (splitOnChar sep rest) = [] :: splitOnChar sep rest
      exact if_pos (beq_self_eq_true sep)
  | cons c piece ih =>
      have hc : (c == sep) = false := by
        rw [beq_eq_false_iff_ne]
        exact fun heq => h (heq ▸ List.mem_cons_self)
      show addToPieces sep c (splitOnChar sep (piece ++ sep :: rest)) = _
      rw [ih (fun hmem => h (List.mem_cons_of_mem c hmem)), addToPieces, hc]
      rfl

/-- The last piece begins after the last separator, whatever stands before that. -/
theorem getLast?_splitOnChar {sep : Char} (before : List Char) {after : List Char}
    (h : sep ∉ after) : (splitOnChar sep (before ++ sep :: after)).getLast? = some after := by
  obtain ⟨front, -, hsplit⟩ : ∃ front, front ≠ [] ∧
      splitOnChar sep (before ++ sep :: after) = front ++ [after] := by
    induction before with
    | nil =>
        refine ⟨[[]], List.cons_ne_nil _ _, ?_⟩
        rw [splitOnChar_append_cons List.not_mem_nil, splitOnChar_of_not_mem h]
        rfl
    | cons c before ih =>
        obtain ⟨front, hne, hsplit⟩ := ih
        have hstep : splitOnChar sep (c :: before ++ sep :: after) =
            addToPieces sep c (front ++ [after]) := by
          rw [← hsplit]
          rfl
        obtain ⟨piece, front, rfl⟩ := List.exists_cons_of_ne_nil hne
        rw [hstep, List.cons_append, addToPieces]
        split
        · exact ⟨[] :: piece :: front, List.cons_ne_nil _ _, rfl⟩
        · exact ⟨(c :: piece) :: front, List.cons_ne_nil _ _, rfl⟩
  rw [hsplit, List.getLast?_concat]

/-- Pieces are read back from what they are joined to. -/
theorem splitOnChar_intercalate {sep : Char} {pieces : List (List Char)} (hne : pieces ≠ [])
    (h : ∀ piece ∈ pieces, sep ∉ piece) : splitOnChar sep ([sep].intercalate pieces) = pieces := by
  induction pieces with
  | nil => exact absurd rfl hne
  | cons piece rest ih =>
      cases rest with
      | nil =>
          rw [List.intercalate_singleton]
          exact splitOnChar_of_not_mem (h piece List.mem_cons_self)
      | cons next rest =>
          rw [List.intercalate_cons_cons, List.append_assoc, List.singleton_append,
            splitOnChar_append_cons (h piece List.mem_cons_self),
            ih (List.cons_ne_nil next rest) (fun p hp => h p (List.mem_cons_of_mem piece hp))]

end Text

namespace Path

/-! ## Names -/

/-- What a directory can hold under a name. -/
structure IsName (name : String) : Prop where
  ne_empty : name ≠ ""
  ne_dot : name ≠ "."
  ne_dots : name ≠ ".."
  no_slash : '/' ∉ name.toList
  no_null : Char.ofNat 0 ∉ name.toList

instance (name : String) : Decidable (IsName name) :=
  decidable_of_iff
    (name ≠ "" ∧ name ≠ "." ∧ name ≠ ".." ∧ '/' ∉ name.toList ∧ Char.ofNat 0 ∉ name.toList)
    ⟨fun ⟨h₁, h₂, h₃, h₄, h₅⟩ => ⟨h₁, h₂, h₃, h₄, h₅⟩,
      fun h => ⟨h.ne_empty, h.ne_dot, h.ne_dots, h.no_slash, h.no_null⟩⟩

/-- A proper name is none of those that name nothing. -/
theorem IsName.beq_empty_or_dot {name : String} (h : IsName name) :
    (name == "" || name == ".") = false := by
  simp [h.ne_empty, h.ne_dot]

theorem IsName.beq_dots {name : String} (h : IsName name) : (name == "..") = false :=
  beq_eq_false_iff_ne.mpr h.ne_dots

theorem join_singleton (name : String) : join [name] = name :=
  String.intercalate_singleton

theorem toList_join (path : List String) :
    (join path).toList = ['/'].intercalate (path.map String.toList) :=
  String.toList_intercalate

/-- A path of names is read back from its text. -/
theorem segments_join {path : List String} (h : ∀ name ∈ path, IsName name) :
    segments (join path) = path := by
  cases path with
  | nil => rfl
  | cons first rest =>
      have hsplit : Text.splitOnChar '/' (join (first :: rest)).toList =
          (first :: rest).map String.toList := by
        rw [toList_join]
        refine Text.splitOnChar_intercalate (by simp) fun piece hpiece => ?_
        obtain ⟨name, hname, rfl⟩ := List.mem_map.mp hpiece
        exact (h name hname).no_slash
      rw [segments, hsplit, List.map_map]
      have hid : String.ofList ∘ String.toList = id := funext fun _ => String.ofList_toList
      rw [hid, List.map_id, List.filter_eq_self]
      intro name hname
      simp only [Bool.and_eq_true, bne_iff_ne]
      exact ⟨(h name hname).ne_empty, (h name hname).ne_dot⟩

/-- The characters of a path are those of its names, and slashes. -/
theorem mem_toList_join {path : List String} {c : Char} (hc : c ∈ (join path).toList) :
    c = '/' ∨ ∃ name ∈ path, c ∈ name.toList := by
  rw [toList_join] at hc
  induction path with
  | nil => simp at hc
  | cons name rest ih =>
      cases rest with
      | nil =>
          simp only [List.map_cons, List.map_nil, List.intercalate_singleton] at hc
          exact .inr ⟨name, List.mem_cons_self, hc⟩
      | cons next rest =>
          rw [List.map_cons, List.map_cons, List.intercalate_cons_cons] at hc
          rcases List.mem_append.mp hc with hc | hc
          · rcases List.mem_append.mp hc with hc | hc
            · exact .inr ⟨name, List.mem_cons_self, hc⟩
            · exact .inl (List.mem_singleton.mp hc)
          · rcases ih hc with hc | ⟨other, hother, hc⟩
            · exact .inl hc
            · exact .inr ⟨other, List.mem_cons_of_mem name hother, hc⟩

/-- A path of names is no path from the top. -/
theorem isAbsolute_join {path : List String} (h : ∀ name ∈ path, IsName name) :
    isAbsolute (join path) = false := by
  cases path with
  | nil => rfl
  | cons first rest =>
      obtain ⟨c, cs, hcs⟩ := List.exists_cons_of_ne_nil
        (fun hnil => (h first List.mem_cons_self).ne_empty (String.toList_eq_nil_iff.mp hnil))
      have hc : c ≠ '/' := by
        rintro rfl
        exact (h first List.mem_cons_self).no_slash (hcs ▸ List.mem_cons_self)
      rw [isAbsolute, toList_join]
      cases rest with
      | nil => simp [hcs, hc]
      | cons next rest =>
          rw [List.map_cons, List.map_cons, List.intercalate_cons_cons, hcs]
          simp [hc]

end Path

end CodeChallenges
