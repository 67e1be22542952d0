import CodeChallenges.Proofs.Repository.Snapshot
import Mathlib.Algebra.GroupWithZero.Nat
import Mathlib.Algebra.Order.BigOperators.Group.List
import Mathlib.Algebra.Order.Group.Nat
/-!
# The walk as a search

The walk takes up pending directories one after another.  Each is listed, or it was visited before
and is given up, and only a directory that is listed makes others pending.  A listed place is never
listed again, so the entries of the file system bound the number of rounds
(`length_visits_le`), and every directory that is made pending has been listed under some path when
the walk ends (`exists_listing_of_entered`).
-/

namespace CodeChallenges.Repository

open CodeChallenges.Path (IsName)

/-! ## Rounds -/

/-- What becomes of a pending directory: it is listed, or it was visited before. -/
inductive Visit where
  | listed (d : Pending)
  | again (d : Pending)

/-- What the walk comes across in a round. -/
def Visit.encounters (s : Snapshot) (root : Place) : Visit → List Encounter
  | .listed d => (s.filesIn root d.path d.place).map fun name => .file (d.path ++ [name])
  | .again d => [.visited d.path]

/-- The directory that is listed in a round. -/
def Visit.listed? : Visit → Option Pending
  | .listed d => some d
  | .again _ => none

/-- The rounds of the walk. -/
def visits (s : Snapshot) (root : Place) (enter : List String → Bool) (unvisited : List Place) :
    List Pending → List Visit
  | [] => []
  | d :: rest =>
    if _h : d.place ∈ unvisited then
      .listed d :: visits s root enter (unvisited.erase d.place) (entered s root enter d ++ rest)
    else .again d :: visits s root enter unvisited rest
  termination_by pending => (unvisited.length, pending.length)
  decreasing_by
    · apply Prod.Lex.left
      have hpos := List.length_pos_of_mem _h
      have herase := List.length_erase_of_mem _h
      omega
    · apply Prod.Lex.right
      simp

/-- The directories that the walk lists, in order. -/
def listing (s : Snapshot) (root : Place) (enter : List String → Bool) (unvisited : List Place)
    (pending : List Pending) : List Pending :=
  (visits s root enter unvisited pending).filterMap Visit.listed?

section Rounds

variable {s : Snapshot} {root : Place} {enter : List String → Bool}

/-- The walk comes across what it comes across in its rounds. -/
theorem walk_eq_flatMap (s : Snapshot) (root : Place) (enter : List String → Bool)
    (unvisited : List Place) (pending : List Pending) :
    walk s root enter unvisited pending =
      (visits s root enter unvisited pending).flatMap (Visit.encounters s root) := by
  fun_induction visits s root enter unvisited pending with
  | case1 unvisited => rw [walk, List.flatMap_nil]
  | case2 unvisited d rest hmem ih =>
      rw [walk, dif_pos hmem, List.flatMap_cons, ← ih]
      rfl
  | case3 unvisited d rest hmem ih =>
      rw [walk, dif_neg hmem, List.flatMap_cons, ← ih]
      rfl

theorem listing_nil (unvisited : List Place) : listing s root enter unvisited [] = [] := by
  rw [listing, visits, List.filterMap_nil]

theorem listing_cons_of_mem {unvisited : List Place} {d : Pending} (rest : List Pending)
    (h : d.place ∈ unvisited) :
    listing s root enter unvisited (d :: rest) =
      d :: listing s root enter (unvisited.erase d.place) (entered s root enter d ++ rest) := by
  rw [listing, visits, dif_pos h]
  rfl

theorem listing_cons_of_not_mem {unvisited : List Place} {d : Pending} (rest : List Pending)
    (h : d.place ∉ unvisited) :
    listing s root enter unvisited (d :: rest) = listing s root enter unvisited rest := by
  rw [listing, visits, dif_neg h]
  rfl

/-- A place that is listed was unvisited. -/
theorem mem_unvisited_of_mem_listing {unvisited : List Place} {pending : List Pending} {d : Pending}
    (h : d ∈ listing s root enter unvisited pending) : d.place ∈ unvisited := by
  fun_induction visits s root enter unvisited pending with
  | case1 unvisited =>
      rw [listing_nil] at h
      cases h
  | case2 unvisited d rest hmem ih =>
      rw [listing_cons_of_mem rest hmem] at h
      rcases List.mem_cons.mp h with rfl | h
      · exact hmem
      · exact List.mem_of_mem_erase (ih h)
  | case3 unvisited d rest hmem ih =>
      rw [listing_cons_of_not_mem rest hmem] at h
      exact ih h

/-- **No place is listed twice.** -/
theorem nodup_places_listing {unvisited : List Place} (hnodup : unvisited.Nodup)
    (pending : List Pending) : ((listing s root enter unvisited pending).map (·.place)).Nodup := by
  fun_induction visits s root enter unvisited pending with
  | case1 unvisited =>
      rw [listing_nil]
      exact List.nodup_nil
  | case2 unvisited d rest hmem ih =>
      rw [listing_cons_of_mem rest hmem, List.map_cons, List.nodup_cons]
      refine ⟨fun hagain => ?_, ih (hnodup.erase d.place)⟩
      obtain ⟨e, he, hplace⟩ := List.mem_map.mp hagain
      have hleft := mem_unvisited_of_mem_listing he
      rw [hplace] at hleft
      exact hnodup.not_mem_erase hleft
  | case3 unvisited d rest hmem ih =>
      rw [listing_cons_of_not_mem rest hmem]
      exact ih hnodup

/-- The files that the walk comes across are those in the directories that it lists. -/
theorem files_walk (s : Snapshot) (root : Place) (enter : List String → Bool)
    (unvisited : List Place) (pending : List Pending) :
    (walk s root enter unvisited pending).filterMap Encounter.file? =
      (listing s root enter unvisited pending).flatMap fun d =>
        (s.filesIn root d.path d.place).map fun name => d.path ++ [name] := by
  have hfiles : ∀ d : Pending,
      ((s.filesIn root d.path d.place).map fun name =>
        Encounter.file (d.path ++ [name])).filterMap Encounter.file? =
          (s.filesIn root d.path d.place).map fun name => d.path ++ [name] := by
    intro d
    rw [List.filterMap_map, ← List.filterMap_eq_map]
    rfl
  fun_induction visits s root enter unvisited pending with
  | case1 unvisited => rw [walk, listing_nil, List.filterMap_nil, List.flatMap_nil]
  | case2 unvisited d rest hmem ih =>
      rw [walk, dif_pos hmem, listing_cons_of_mem rest hmem, List.filterMap_append, hfiles,
        List.flatMap_cons, ← ih]
      rfl
  | case3 unvisited d rest hmem ih =>
      rw [walk, dif_neg hmem, listing_cons_of_not_mem rest hmem, ← ih]
      rfl

/-- What every pending directory satisfies, and hands on to those it is entered from, every listed
directory satisfies. -/
theorem forall_mem_listing {P : Pending → Prop}
    (hstep : ∀ d, P d → ∀ e ∈ entered s root enter d, P e) {unvisited : List Place}
    {pending : List Pending} (h : ∀ d ∈ pending, P d) :
    ∀ d ∈ listing s root enter unvisited pending, P d := by
  fun_induction visits s root enter unvisited pending with
  | case1 unvisited =>
      rw [listing_nil]
      exact List.forall_mem_nil P
  | case2 unvisited d rest hmem ih =>
      obtain ⟨hd, hrest⟩ := List.forall_mem_cons.mp h
      rw [listing_cons_of_mem rest hmem]
      refine List.forall_mem_cons.mpr ⟨hd, ih fun e he => ?_⟩
      rcases List.mem_append.mp he with he | he
      · exact hstep d hd e he
      · exact hrest e he
  | case3 unvisited d rest hmem ih =>
      rw [listing_cons_of_not_mem rest hmem]
      exact ih (List.forall_mem_cons.mp h).2

/-! ## What is listed in the end -/

/-- A pending place that is unvisited gets listed. -/
theorem exists_listing_of_pending {unvisited : List Place} {pending : List Pending} {d : Pending}
    (hd : d ∈ pending) (hplace : d.place ∈ unvisited) :
    ∃ e ∈ listing s root enter unvisited pending, e.place = d.place := by
  fun_induction visits s root enter unvisited pending with
  | case1 unvisited => cases hd
  | case2 unvisited first rest hmem ih =>
      rw [listing_cons_of_mem rest hmem]
      -- Either the place is listed in this round, or it stays unvisited and pending.
      by_cases hsame : d.place = first.place
      · exact ⟨first, List.mem_cons_self, hsame.symm⟩
      · have hrest : d ∈ rest := by
          rcases List.mem_cons.mp hd with rfl | hrest
          · exact absurd rfl hsame
          · exact hrest
        obtain ⟨e, he, heq⟩ := ih (List.mem_append_right _ hrest)
          ((List.mem_erase_of_ne hsame).mpr hplace)
        exact ⟨e, List.mem_cons_of_mem first he, heq⟩
  | case3 unvisited first rest hmem ih =>
      rw [listing_cons_of_not_mem rest hmem]
      rcases List.mem_cons.mp hd with rfl | hrest
      · exact absurd hplace hmem
      · exact ih hrest hplace

/-- A directory that is entered from a listed one is listed itself, then or before. -/
theorem exists_listing_of_entered {unvisited : List Place} {pending : List Pending}
    {d e : Pending} (hd : d ∈ listing s root enter unvisited pending)
    (he : e ∈ entered s root enter d) (hplace : e.place ∈ unvisited) :
    ∃ e' ∈ listing s root enter unvisited pending, e'.place = e.place := by
  fun_induction visits s root enter unvisited pending with
  | case1 unvisited =>
      rw [listing_nil] at hd
      cases hd
  | case2 unvisited first rest hmem ih =>
      rw [listing_cons_of_mem rest hmem] at hd ⊢
      by_cases hsame : e.place = first.place
      · exact ⟨first, List.mem_cons_self, hsame.symm⟩
      · have hleft : e.place ∈ unvisited.erase first.place := (List.mem_erase_of_ne hsame).mpr hplace
        -- What is entered from this round is pending from here on; the rest is for later rounds.
        have hlater : ∃ e' ∈ listing s root enter (unvisited.erase first.place)
            (entered s root enter first ++ rest), e'.place = e.place := by
          rcases List.mem_cons.mp hd with rfl | hd
          · exact exists_listing_of_pending (List.mem_append_left _ he) hleft
          · exact ih hd hleft
        obtain ⟨e', he', heq⟩ := hlater
        exact ⟨e', List.mem_cons_of_mem first he', heq⟩
  | case3 unvisited first rest hmem ih =>
      rw [listing_cons_of_not_mem rest hmem] at hd ⊢
      exact ih hd hplace

/-! ## The number of rounds -/

/-- There are as many rounds as directories that were ever pending. -/
theorem length_visits (s : Snapshot) (root : Place) (enter : List String → Bool)
    (unvisited : List Place) (pending : List Pending) :
    (visits s root enter unvisited pending).length =
      pending.length + ((listing s root enter unvisited pending).map fun d =>
        (entered s root enter d).length).sum := by
  fun_induction visits s root enter unvisited pending with
  | case1 unvisited =>
      rw [listing_nil]
      rfl
  | case2 unvisited d rest hmem ih =>
      rw [listing_cons_of_mem rest hmem, List.length_cons, ih, List.length_append, List.map_cons,
        List.sum_cons, List.length_cons]
      omega
  | case3 unvisited d rest hmem ih =>
      rw [listing_cons_of_not_mem rest hmem, List.length_cons, ih, List.length_cons]
      omega

/-- No more directories are entered than there are names. -/
theorem length_entered_le (d : Pending) :
    (entered s root enter d).length ≤ (s.namesIn d.place).length := by
  rw [entered]
  refine (List.length_filter_le _ _).trans ?_
  rw [List.length_map, List.length_mergeSort]
  exact List.length_filterMap_le _ _

/-- An entry lies in one directory, so different directories share the entries out. -/
theorem sum_length_namesIn_le {places : List Place} (h : places.Nodup) :
    (places.map fun place => (s.namesIn place).length).sum ≤ s.entries.length := by
  have hcount : ∀ place, (s.namesIn place).length =
      s.entries.countP fun item => (Snapshot.nameIn place item.1).isSome := by
    intro place
    rw [Snapshot.namesIn_eq, List.length_filterMap_eq_countP]
  simp only [hcount]
  generalize s.entries = entries
  -- Each entry counts at most once, for the directory that its place begins with.
  induction entries with
  | nil => simp
  | cons item entries ih =>
      have hitem : places.countP (fun place => (Snapshot.nameIn place item.1).isSome) ≤ 1 := by
        refine le_trans (List.countP_mono_left fun place _ hsome => ?_)
          (List.nodup_iff_count_le_one.mp h item.1.dropLast)
        obtain ⟨name, hname⟩ := Option.isSome_iff_exists.mp hsome
        rw [Snapshot.nameIn_eq_some_iff.mp hname, List.dropLast_concat]
        exact beq_self_eq_true place
      have hsplit : ∀ places : List Place,
          (places.map fun place =>
            (item :: entries).countP fun item => (Snapshot.nameIn place item.1).isSome).sum =
            places.countP (fun place => (Snapshot.nameIn place item.1).isSome) +
              (places.map fun place =>
                entries.countP fun item => (Snapshot.nameIn place item.1).isSome).sum := by
        intro places
        induction places with
        | nil => rfl
        | cons place places ih =>
            simp only [List.map_cons, List.sum_cons, List.countP_cons] at ih ⊢
            omega
      rw [hsplit, List.length_cons]
      omega

/-- **The walk ends** after at most one round for each entry, and one for each directory that is
pending at the start. -/
theorem length_visits_le {unvisited : List Place} (hnodup : unvisited.Nodup)
    (pending : List Pending) :
    (visits s root enter unvisited pending).length ≤ pending.length + s.entries.length := by
  have hentered : ((listing s root enter unvisited pending).map fun d =>
      (entered s root enter d).length).sum ≤
        ((listing s root enter unvisited pending).map fun d => (s.namesIn d.place).length).sum :=
    List.sum_le_sum fun d _ => length_entered_le d
  have hplaces : ((listing s root enter unvisited pending).map (·.place)).Nodup :=
    nodup_places_listing hnodup pending
  have hnames := sum_length_namesIn_le (s := s) hplaces
  rw [List.map_map] at hnames
  rw [length_visits]
  exact Nat.add_le_add_left (hentered.trans hnames) _

end Rounds

end CodeChallenges.Repository
