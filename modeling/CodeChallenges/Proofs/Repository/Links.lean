import CodeChallenges.Proofs.Repository.Snapshot
/-!
# Paths through links

Names can be followed piece by piece: what comes after the first names starts at the place to which
these lead, with the links that they have left (`follow_append`).  With fewer links left the way is
the same, until there are too many (`follow_of_le`).  So the path of an entry in a directory leads
where the directory itself leads under the name of the entry, unless this path is refused for its
length or for its links (`Arrived.locate_cases`).
-/

namespace CodeChallenges.Repository

open CodeChallenges.Path (IsName join)

namespace Snapshot

variable {s : Snapshot}

/-! ## Following with what is left of the links -/

/-- For looking, it does not matter whether a path ends in a slash. -/
theorem look_isSlashEnd (rest : List String) :
    (Purpose.look == Purpose.write && isSlashEnd rest) = false := rfl

/-- Two dots lead to the directory above. -/
theorem follow_dots {budget : Nat} {here : Place} (rest : List String)
    (hdir : s.entryAt here = some .directory) :
    s.follow .look budget here (".." :: rest) = s.follow .look budget here.dropLast rest := by
  rw [follow, hdir, bne_self_eq_false, if_neg Bool.false_ne_true,
    if_neg (by decide : ¬ ((".." == "" || ".." == ".") = true)),
    if_pos (by decide : (".." == "..") = true)]

/-- Following a name to a link uses the link up. -/
theorem follow_link {budget : Nat} {here : Place} {name target : String} (rest : List String)
    (hdir : s.entryAt here = some .directory) (hname : IsName name)
    (hsize : name.utf8ByteSize ≤ maxNameBytes)
    (hentry : s.entryAt (here ++ [name]) = some (.link target)) :
    s.follow .look (budget + 1) here (name :: rest) =
      s.follow .look budget (startOf here target) (namesOf target ++ rest) := by
  rw [follow, hdir, bne_self_eq_false, if_neg Bool.false_ne_true, hname.beq_empty_or_dot,
    if_neg Bool.false_ne_true, hname.beq_dots, if_neg Bool.false_ne_true, look_isSlashEnd,
    if_neg Bool.false_ne_true, if_neg (Nat.not_lt.mpr hsize), hentry]

/-- A link whose target begins with two dots leads on from the directory above. -/
theorem follow_link_up {budget : Nat} {here : Place} {name target : String} {names : List String}
    (rest : List String) (hdir : s.entryAt here = some .directory) (hname : IsName name)
    (hsize : name.utf8ByteSize ≤ maxNameBytes)
    (hentry : s.entryAt (here ++ [name]) = some (.link target))
    (hstart : startOf here target = here) (hnames : namesOf target = ".." :: names) :
    s.follow .look (budget + 1) here (name :: rest) =
      s.follow .look budget here.dropLast (names ++ rest) := by
  rw [follow_link rest hdir hname hsize hentry, hstart, hnames, List.cons_append,
    follow_dots _ hdir]

/-- Without links left, a name of a link cannot be followed. -/
theorem follow_link_zero {here : Place} {name target : String} (rest : List String)
    (hdir : s.entryAt here = some .directory) (hname : IsName name)
    (hsize : name.utf8ByteSize ≤ maxNameBytes)
    (hentry : s.entryAt (here ++ [name]) = some (.link target)) :
    s.follow .look 0 here (name :: rest) = .error .tooManyLinks := by
  rw [follow, hdir, bne_self_eq_false, if_neg Bool.false_ne_true, hname.beq_empty_or_dot,
    if_neg Bool.false_ne_true, hname.beq_dots, if_neg Bool.false_ne_true, look_isSlashEnd,
    if_neg Bool.false_ne_true, if_neg (Nat.not_lt.mpr hsize), hentry]

/-- More names are followed from where the first ones lead, with the links that these have left. -/
theorem follow_append {budget : Nat} {here place : Place} {names : List String}
    (h : s.follow .look budget here names = .ok place) (more : List String) :
    ∃ left ≤ budget, s.follow .look budget here (names ++ more) = s.follow .look left place more := by
  fun_induction Snapshot.follow s .look budget here names with
  | case1 budget here =>
      cases h
      exact ⟨budget, le_refl budget, rfl⟩
  | case2 | case5 | case6 | case7 | case8 => cases h
  | case3 budget here name rest hdir hdot ih =>
      rw [List.cons_append, follow, if_neg hdir, if_pos hdot]
      exact ih h
  | case4 budget here name rest hdir hdot hdots ih =>
      rw [List.cons_append, follow, if_neg hdir, if_neg hdot, if_pos hdots]
      exact ih h
  | case9 here name rest hdir hdot hdots _ hsize target hentry budget ih =>
      rw [List.cons_append, follow, if_neg hdir, if_neg hdot, if_neg hdots, look_isSlashEnd,
        if_neg Bool.false_ne_true, if_neg hsize, hentry]
      -- The names of the target come before the rest, so what follows is the same.
      obtain ⟨left, hle, heq⟩ := ih h
      rw [List.append_assoc] at heq
      exact ⟨left, Nat.le_succ_of_le hle, heq⟩
  | case10 budget here name rest hdir hdot hdots _ hsize entry hlink hentry ih =>
      rw [List.cons_append, follow, if_neg hdir, if_neg hdot, if_neg hdots, look_isSlashEnd,
        if_neg Bool.false_ne_true, if_neg hsize, hentry]
      cases entry with
      | directory | file => exact ih h
      | link target => exact absurd rfl (hlink target)

/-- With fewer links left, names lead to the same place or through too many links. -/
theorem follow_of_le {left budget : Nat} (hle : left ≤ budget) (here : Place)
    (names : List String) :
    s.follow .look left here names = .error .tooManyLinks ∨
      s.follow .look left here names = s.follow .look budget here names := by
  fun_induction Snapshot.follow s .look left here names generalizing budget with
  | case1 left here =>
      rw [follow]
      exact .inr rfl
  | case2 left here name rest hdir =>
      rw [follow, if_pos hdir]
      exact .inr rfl
  | case3 left here name rest hdir hdot ih =>
      rw [follow, if_neg hdir, if_pos hdot]
      exact ih hle
  | case4 left here name rest hdir hdot hdots ih =>
      rw [follow, if_neg hdir, if_neg hdot, if_pos hdots]
      exact ih hle
  | case5 left here name rest hdir hdot hdots hslash => cases hslash
  | case6 left here name rest hdir hdot hdots _ hsize =>
      rw [follow, if_neg hdir, if_neg hdot, if_neg hdots, look_isSlashEnd,
        if_neg Bool.false_ne_true, if_pos hsize]
      exact .inr rfl
  | case7 left here name rest hdir hdot hdots _ hsize hentry =>
      rw [follow, if_neg hdir, if_neg hdot, if_neg hdots, look_isSlashEnd,
        if_neg Bool.false_ne_true, if_neg hsize, hentry]
      exact .inr rfl
  | case8 => exact .inl rfl
  | case9 here name rest hdir hdot hdots _ hsize target hentry left ih =>
      rw [follow, if_neg hdir, if_neg hdot, if_neg hdots, look_isSlashEnd,
        if_neg Bool.false_ne_true, if_neg hsize, hentry]
      cases budget with
      | zero => exact absurd hle (Nat.not_succ_le_zero left)
      | succ budget => exact ih (Nat.le_of_succ_le_succ hle)
  | case10 left here name rest hdir hdot hdots _ hsize entry hlink hentry ih =>
      rw [follow, if_neg hdir, if_neg hdot, if_neg hdots, look_isSlashEnd,
        if_neg Bool.false_ne_true, if_neg hsize, hentry]
      cases entry with
      | directory | file => exact ih hle
      | link target => exact absurd rfl (hlink target)

/-! ## Entries of a directory -/

/-- A snapshot in which a place has one entry, and every entry has a name that a directory can
hold. -/
structure Proper (s : Snapshot) : Prop where
  nodup : (s.entries.map (·.1)).Nodup
  isName : ∀ item ∈ s.entries, item.1 ≠ [] ∧ ∀ name ∈ item.1.getLast?, IsName name

instance (s : Snapshot) : Decidable s.Proper :=
  decidable_of_iff
    ((s.entries.map (·.1)).Nodup ∧
      ∀ item ∈ s.entries, item.1 ≠ [] ∧ ∀ name ∈ item.1.getLast?, IsName name)
    ⟨fun ⟨h₁, h₂⟩ => ⟨h₁, h₂⟩, fun h => ⟨h.nodup, h.isName⟩⟩

theorem Proper.isName_of_mem (hs : s.Proper) {place : Place} {name : String}
    (h : name ∈ s.namesIn place) : IsName name := by
  rw [namesIn_eq, List.mem_filterMap] at h
  obtain ⟨item, hitem, hname⟩ := h
  refine (hs.isName item hitem).2 name ?_
  rw [nameIn_eq_some_iff.mp hname, List.getLast?_concat]
  rfl

theorem Proper.nodup_directories (hs : s.Proper) : s.directories.Nodup := by
  refine List.nodup_cons.mpr ⟨fun h => ?_, hs.nodup.sublist (List.filter_sublist.map _)⟩
  obtain ⟨item, hitem, hnil⟩ := List.mem_map.mp h
  exact (hs.isName item (List.mem_of_mem_filter hitem)).1 hnil

/-- The entry with a name in a directory is, or links to, a given entry at a given place. -/
def Leads (s : Snapshot) (place : Place) (name : String) (target : Place) (entry : Entry) : Prop :=
  s.follow .look maxLinks place [name] = .ok target ∧ s.entryAt target = some entry

/-- A path below a root is refused for its length or for the number of its links. -/
def Refuses (s : Snapshot) (root : Place) (path : List String) : Prop :=
  s.locate root (join path) = .error .nameTooLong ∨ s.locate root (join path) = .error .tooManyLinks

/-- What is found is not refused. -/
theorem not_refuses_of_find {root : Place} {path : List String} {target : Place} {entry : Entry}
    (h : s.find? root path = some (target, entry)) : ¬ s.Refuses root path := by
  have hlocate := (find_eq_some_iff.mp h).1
  rw [Refuses, hlocate]
  exact fun hrefused => hrefused.elim nofun nofun

end Snapshot

/-- A directory to which the names of its path lead. -/
structure Arrived (s : Snapshot) (root : Place) (d : Pending) : Prop where
  isName : ∀ name ∈ d.path, IsName name
  follow_eq : s.follow .look Snapshot.maxLinks root d.path = .ok d.place
  directory : s.entryAt d.place = some .directory

section Arrived

variable {s : Snapshot} {root : Place} {d : Pending} {name : String} {target : Place}
  {entry : Entry}

open Snapshot (follow_append follow_of_le locate_join_of_isName)

/-- One more name leads on as it does from the directory itself, unless the path is refused. -/
theorem Arrived.locate_cases (hd : Arrived s root d) (hname : IsName name) :
    s.Refuses root (d.path ++ [name]) ∨
      s.locate root (join (d.path ++ [name])) = s.follow .look Snapshot.maxLinks d.place [name] := by
  have hnames : ∀ n ∈ d.path ++ [name], IsName n :=
    List.forall_mem_append.mpr ⟨hd.isName, List.forall_mem_singleton.mpr hname⟩
  rw [Snapshot.Refuses, locate_join_of_isName s root hnames]
  split
  · exact .inl (.inl rfl)
  · obtain ⟨left, hle, heq⟩ := follow_append hd.follow_eq [name]
    rw [heq]
    exact (follow_of_le hle d.place [name]).imp_left .inr

/-- What is found under a longer path is what the directory leads to. -/
theorem Arrived.leads_of_find (hd : Arrived s root d) (hname : IsName name)
    (h : s.find? root (d.path ++ [name]) = some (target, entry)) : s.Leads d.place name target entry := by
  obtain ⟨hlocate, hentry⟩ := Snapshot.find_eq_some_iff.mp h
  refine ⟨?_, hentry⟩
  rcases hd.locate_cases hname with (hrefused | hrefused) | hsame
  · rw [hlocate] at hrefused
    cases hrefused
  · rw [hlocate] at hrefused
    cases hrefused
  · rw [← hsame, hlocate]

/-- What the directory leads to is found under a longer path, unless this is refused. -/
theorem Arrived.find_of_leads (hd : Arrived s root d) (hname : IsName name)
    (h : s.Leads d.place name target entry) (hrefused : ¬ s.Refuses root (d.path ++ [name])) :
    s.find? root (d.path ++ [name]) = some (target, entry) := by
  have hlocate := (hd.locate_cases hname).resolve_left hrefused
  exact Snapshot.find_eq_some_iff.mpr ⟨hlocate.trans h.1, h.2⟩

/-- A directory that is entered has been arrived at. -/
theorem Arrived.entered (hs : s.Proper) {enter : List String → Bool} {e : Pending}
    (he : e ∈ entered s root enter d) (hd : Arrived s root d) : Arrived s root e := by
  obtain ⟨name, hmem, hpath, hfind, -⟩ := mem_entered_iff.mp he
  have hname := hs.isName_of_mem hmem
  have hnames : ∀ n ∈ e.path, IsName n := by
    rw [hpath]
    exact List.forall_mem_append.mpr ⟨hd.isName, List.forall_mem_singleton.mpr hname⟩
  obtain ⟨hlocate, hdirectory⟩ := Snapshot.find_eq_some_iff.mp hfind
  rw [locate_join_of_isName s root hnames] at hlocate
  split at hlocate
  · cases hlocate
  · exact ⟨hnames, hlocate, hdirectory⟩

end Arrived

end CodeChallenges.Repository
