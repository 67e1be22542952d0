import CodeChallenges.Proofs.Path
import CodeChallenges.Repository.Snapshot
import Mathlib.Data.List.Infix
import Mathlib.Data.List.Nodup
/-!
# Plain repositories

In a plain repository there are no links, every entry lies in a directory, and every path is made
of proper names and is short enough to be looked up.  There a path leads to its own place
(`locate_join`), and the walk comes across exactly the files whose directories it may enter
(`mem_walk_iff`).  The walk is followed by an invariant: the pending directories do not lie one
inside another, and no directory at or below them has been visited.
-/

namespace CodeChallenges.Repository

namespace Snapshot

open CodeChallenges.Path (IsName join)

/-! ## Single steps -/

theorem follow_nil (s : Snapshot) (purpose : Purpose) (budget : Nat) (here : Place) :
    s.follow purpose budget here [] = .ok here := by
  rw [follow]

/-- Following a name to an entry that is no link leads to the place of the entry. -/
theorem follow_cons {s : Snapshot} {purpose : Purpose} {budget : Nat} {here : Place} {name : String}
    {rest : List String} {entry : Entry} (hdir : s.entryAt here = some .directory)
    (hname : IsName name) (hsize : name.utf8ByteSize ≤ maxNameBytes)
    (hslash : isSlashEnd rest = false) (hentry : s.entryAt (here ++ [name]) = some entry)
    (hlink : ∀ target, entry ≠ .link target) :
    s.follow purpose budget here (name :: rest) =
      s.follow purpose budget (here ++ [name]) rest := by
  rw [follow, hdir, hname.beq_empty_or_dot, hname.beq_dots, hslash, Bool.and_false]
  simp only [bne_self_eq_false, Bool.false_eq_true, if_false]
  rw [if_neg (Nat.not_lt.mpr hsize)]
  cases entry with
  | directory => rw [hentry]
  | file content => rw [hentry]
  | link target => exact absurd rfl (hlink target)

/-- Following a name leads nowhere if the directory has no entry of the name. -/
theorem follow_of_missing {s : Snapshot} {purpose : Purpose} {budget : Nat} {here : Place}
    {name : String} {rest : List String} (hdir : s.entryAt here = some .directory)
    (hname : IsName name) (hsize : name.utf8ByteSize ≤ maxNameBytes)
    (hslash : isSlashEnd rest = false) (hentry : s.entryAt (here ++ [name]) = none) :
    s.follow purpose budget here (name :: rest) = .error (.missing rest) := by
  rw [follow, hdir, hname.beq_empty_or_dot, hname.beq_dots, hslash, Bool.and_false]
  simp only [bne_self_eq_false, Bool.false_eq_true, if_false]
  rw [if_neg (Nat.not_lt.mpr hsize), hentry]

/-- A path that can be looked up at all leads where its names lead. -/
theorem locateFor_eq_follow {s : Snapshot} {purpose : Purpose} {here : Place} {path : String}
    (hnull : path.toList.contains (Char.ofNat 0) = false)
    (hshort : (placeOf here path).text.utf8ByteSize ≤ maxPathBytes) :
    s.locateFor purpose here path =
      s.follow purpose maxLinks (startOf here path) (Path.segments path) := by
  rw [locateFor, hnull, if_neg Bool.false_ne_true, if_neg (Nat.not_lt.mpr hshort)]

theorem locate_eq_follow {s : Snapshot} {here : Place} {path : String}
    (hnull : path.toList.contains (Char.ofNat 0) = false)
    (hshort : (placeOf here path).text.utf8ByteSize ≤ maxPathBytes) :
    s.locate here path = s.follow .look maxLinks (startOf here path) (Path.segments path) :=
  locateFor_eq_follow hnull hshort

/-- Only the text of a path itself can hold a null character that is complained about. -/
theorem follow_ne_nullCharacter (s : Snapshot) (purpose : Purpose) (budget : Nat) (here : Place)
    (names : List String) : s.follow purpose budget here names ≠ .error .nullCharacter := by
  fun_induction Snapshot.follow s purpose budget here names
  case case3 ih => exact ih
  case case4 ih => exact ih
  case case9 ih => exact ih
  case case10 ih => exact ih
  all_goals exact fun h => nomatch h

theorem locate_ne_nullCharacter {s : Snapshot} {here : Place} {path : String}
    (hnull : path.toList.contains (Char.ofNat 0) = false) :
    s.locate here path ≠ .error .nullCharacter := by
  rw [locate, locateFor, hnull, if_neg Bool.false_ne_true]
  split
  · exact fun h => nomatch h
  · exact follow_ne_nullCharacter s _ _ _ _

theorem isSlashEnd_of_isName {names : List String} (h : ∀ name ∈ names, IsName name) :
    isSlashEnd names = false := by
  cases names with
  | nil => rfl
  | cons name rest =>
      have hne : (name == "") = false :=
        beq_eq_false_iff_ne.mpr (h name List.mem_cons_self).ne_empty
      simp only [isSlashEnd, List.all_cons, hne, Bool.false_and, Bool.and_false]

/-- The name under which the directory at one place holds another place. -/
def nameIn (place inside : Place) : Option String :=
  match inside.getLast? with
  | some name => if inside.dropLast == place then some name else none
  | none => none

theorem nameIn_eq_some_iff {place inside : Place} {name : String} :
    nameIn place inside = some name ↔ inside = place ++ [name] := by
  constructor
  · intro h
    unfold nameIn at h
    split at h
    · rename_i last hlast
      split at h
      · rename_i hdrop
        cases h
        rw [← beq_iff_eq.mp hdrop, List.dropLast_append_getLast? name hlast]
      · cases h
    · cases h
  · rintro rfl
    simp [nameIn]

theorem namesIn_eq (s : Snapshot) (place : Place) :
    s.namesIn place = s.entries.filterMap fun item => nameIn place item.1 := rfl

theorem mem_of_lookup {entries : List (Place × Entry)} {place : Place} {entry : Entry}
    (h : entries.lookup place = some entry) : (place, entry) ∈ entries := by
  obtain ⟨before, after, rfl, -⟩ := List.lookup_eq_some_iff.mp h
  exact List.mem_append_right before List.mem_cons_self

theorem lookup_isSome_iff {entries : List (Place × Entry)} {place : Place} :
    (entries.lookup place).isSome ↔ ∃ entry, (place, entry) ∈ entries := by
  rw [List.lookup_isSome_iff]
  constructor
  · rintro ⟨⟨other, entry⟩, hmem, heq⟩
    rw [beq_iff_eq.mp heq]
    exact ⟨entry, hmem⟩
  · rintro ⟨entry, hmem⟩
    exact ⟨(place, entry), hmem, beq_self_eq_true place⟩

/-- The names in a directory are those of its entries. -/
theorem mem_namesIn {s : Snapshot} {place : Place} {name : String} :
    name ∈ s.namesIn place ↔ (s.entryAt (place ++ [name])).isSome := by
  have hne : (place ++ [name]).isEmpty = false := by
    cases place with
    | nil => rfl
    | cons first rest => rfl
  rw [entryAt, hne, if_neg Bool.false_ne_true, lookup_isSome_iff, namesIn_eq, List.mem_filterMap]
  constructor
  · rintro ⟨⟨inside, entry⟩, hmem, h⟩
    exact ⟨entry, nameIn_eq_some_iff.mp h ▸ hmem⟩
  · rintro ⟨entry, hmem⟩
    exact ⟨_, hmem, nameIn_eq_some_iff.mpr rfl⟩

/-- A directory has no name twice if no place has two entries. -/
theorem nodup_namesIn_of_nodup {s : Snapshot} (h : (s.entries.map (·.1)).Nodup) (place : Place) :
    (s.namesIn place).Nodup := by
  have hpairs : s.entries.Pairwise (fun item item' => item.1 ≠ item'.1) := List.pairwise_map.mp h
  rw [namesIn_eq, List.Nodup, List.pairwise_filterMap]
  refine hpairs.imp fun {item item'} hne name h name' h' heq => hne ?_
  rw [nameIn_eq_some_iff.mp h, nameIn_eq_some_iff.mp h', heq]

/-- The places of directories are listed as such. -/
theorem mem_directories {s : Snapshot} {place : Place} (h : s.entryAt place = some .directory) :
    place ∈ s.directories := by
  rw [entryAt] at h
  split at h
  · rename_i hempty
    rw [List.isEmpty_iff.mp hempty]
    exact List.mem_cons_self
  · refine List.mem_cons_of_mem _ (List.mem_map.mpr ⟨(place, .directory), ?_, rfl⟩)
    exact List.mem_filter.mpr ⟨mem_of_lookup h, beq_self_eq_true _⟩

/-- A path of names leads where its names lead, if it is short enough. -/
theorem locate_join_of_isName (s : Snapshot) (here : Place) {path : List String}
    (h : ∀ name ∈ path, IsName name) :
    s.locate here (join path) =
      if maxPathBytes < (Place.text (here ++ path)).utf8ByteSize then .error .nameTooLong
      else s.follow .look maxLinks here path := by
  have hnull : (join path).toList.contains (Char.ofNat 0) = false := by
    rw [Bool.eq_false_iff, ne_eq, List.contains_iff_mem]
    intro hmem
    rcases Path.mem_toList_join hmem with heq | ⟨name, hname, hmem⟩
    · exact absurd heq (by decide)
    · exact (h name hname).no_null hmem
  have hstart : startOf here (join path) = here := by
    rw [startOf, Path.isAbsolute_join h, if_neg Bool.false_ne_true]
  rw [locate, locateFor, hnull, if_neg Bool.false_ne_true, placeOf, hstart, Path.segments_join h]

/-- Found is what there is at the place to which a path leads. -/
theorem find_eq_some_iff {s : Snapshot} {root : Place} {path : List String} {target : Place}
    {entry : Entry} :
    s.find? root path = some (target, entry) ↔
      s.locate root (join path) = .ok target ∧ s.entryAt target = some entry := by
  rw [find?]
  cases s.locate root (join path) with
  | error fault => exact iff_of_false (fun h => nomatch h) fun h => nomatch h.1
  | ok place =>
      dsimp only
      rw [Option.map_eq_some_iff, Except.ok.injEq]
      constructor
      · rintro ⟨found, hfound, heq⟩
        cases heq
        exact ⟨rfl, hfound⟩
      · rintro ⟨rfl, hfound⟩
        exact ⟨entry, hfound, rfl⟩

/-- What names lead to is found, if the path is short enough. -/
theorem find_of_follow {s : Snapshot} {root : Place} {path : List String} {target : Place}
    {entry : Entry} (hnames : ∀ name ∈ path, IsName name)
    (hshort : (Place.text (root ++ path)).utf8ByteSize ≤ maxPathBytes)
    (hfollow : s.follow .look maxLinks root path = .ok target)
    (hentry : s.entryAt target = some entry) : s.find? root path = some (target, entry) := by
  refine find_eq_some_iff.mpr ⟨?_, hentry⟩
  rw [locate_join_of_isName s root hnames, if_neg (Nat.not_lt.mpr hshort), hfollow]

theorem isFile_of_find {s : Snapshot} {root target : Place} {path : List String}
    {content : List UInt8} (h : s.find? root path = some (target, .file content)) :
    s.isFile root (join path) = true := by
  obtain ⟨hlocate, hentry⟩ := find_eq_some_iff.mp h
  rw [isFile, read?, hlocate]
  simp only [hentry, Option.isSome_some]

theorem mem_filesIn_iff {s : Snapshot} {root : Place} {path : List String} {place : Place}
    {name : String} :
    name ∈ s.filesIn root path place ↔ name ∈ s.namesIn place ∧
      ∃ target content, s.find? root (path ++ [name]) = some (target, .file content) := by
  rw [filesIn, List.mem_filter]
  refine and_congr_right fun _ => ?_
  split
  · rename_i target content hfind
    exact iff_of_true rfl ⟨target, content, hfind⟩
  · rename_i hother
    refine iff_of_false Bool.false_ne_true ?_
    rintro ⟨target, content, hfind⟩
    exact hother target content hfind

theorem mem_subdirectories_iff {s : Snapshot} {root : Place} {path : List String}
    {place target : Place} {name : String} :
    (name, target) ∈ s.subdirectories root path place ↔
      name ∈ s.namesIn place ∧ s.find? root (path ++ [name]) = some (target, .directory) := by
  rw [subdirectories, List.mem_filterMap]
  constructor
  · rintro ⟨other, hother, h⟩
    split at h
    · rename_i found hfind
      cases h
      exact ⟨hother, hfind⟩
    · cases h
  · rintro ⟨hname, hfind⟩
    exact ⟨name, hname, by rw [hfind]⟩

theorem isFile_of_mem_filesIn {s : Snapshot} {root : Place} {path : List String} {place : Place}
    {name : String} (h : name ∈ s.filesIn root path place) :
    s.isFile root (join (path ++ [name])) = true := by
  obtain ⟨-, target, content, hfind⟩ := mem_filesIn_iff.mp h
  exact isFile_of_find hfind

end Snapshot

/-! ## Plain repositories -/

open CodeChallenges.Path (IsName join)

/-- What a repository without links looks like below its root. -/
structure Snapshot.Plain (s : Snapshot) (root : Place) : Prop where
  nodup : (s.entries.map (·.1)).Nodup
  root_directory : s.entryAt root = some .directory
  no_link : ∀ path target, s.entryAt (root ++ path) ≠ some (.link target)
  in_directory : ∀ path name, (s.entryAt (root ++ (path ++ [name]))).isSome →
    s.entryAt (root ++ path) = some .directory
  isName : ∀ path, (s.entryAt (root ++ path)).isSome → ∀ name ∈ path, IsName name
  name_size : ∀ path, (s.entryAt (root ++ path)).isSome →
    ∀ name ∈ path, name.utf8ByteSize ≤ Snapshot.maxNameBytes
  path_size : ∀ path, (s.entryAt (root ++ path)).isSome →
    (Place.text (root ++ path)).utf8ByteSize ≤ Snapshot.maxPathBytes

/-- Whether an entry below a root is as a plain repository has it. -/
def Snapshot.isPlainEntry (s : Snapshot) (root : Place) (item : Place × Entry) : Bool :=
  (match item.2 with
    | .link _ => false
    | _ => true) &&
  s.entryAt item.1.dropLast == some .directory &&
  (item.1.drop root.length).all (fun name => IsName name && name.utf8ByteSize ≤ maxNameBytes) &&
  item.1.text.utf8ByteSize ≤ maxPathBytes

/-- Whether a repository is plain, tested entry by entry. -/
def Snapshot.isPlain (s : Snapshot) (root : Place) : Bool :=
  decide (s.entries.map (·.1)).Nodup && s.entryAt root == some .directory &&
  root.text.utf8ByteSize ≤ maxPathBytes &&
  s.entries.all fun item => !(root.isPrefixOf item.1 && root != item.1) || s.isPlainEntry root item

theorem Snapshot.plain_of_isPlain {s : Snapshot} {root : Place} (h : s.isPlain root = true) :
    s.Plain root := by
  simp only [isPlain, Bool.and_eq_true, decide_eq_true_eq, beq_iff_eq, List.all_eq_true] at h
  obtain ⟨⟨⟨hnodup, hdir⟩, hroot⟩, hall⟩ := h
  -- Below the root every entry has passed the test.
  have hentry : ∀ path entry, path ≠ [] → s.entryAt (root ++ path) = some entry →
      s.isPlainEntry root (root ++ path, entry) = true := by
    intro path entry hne h
    have hempty : (root ++ path).isEmpty = false := by
      rw [List.isEmpty_eq_false_iff]
      exact List.append_ne_nil_of_right_ne_nil root hne
    rw [entryAt, hempty, if_neg Bool.false_ne_true] at h
    have htest := hall _ (mem_of_lookup h)
    have hpre : root.isPrefixOf (root ++ path) = true :=
      List.isPrefixOf_iff_prefix.mpr (List.prefix_append root path)
    have hother : (root != root ++ path) = true := by
      rw [bne_iff_ne]
      exact fun heq => hne (List.self_eq_append_right.mp heq)
    simpa only [hpre, hother, Bool.and_self, Bool.not_true, Bool.false_or] using htest
  have hplain : ∀ path entry, path ≠ [] → s.entryAt (root ++ path) = some entry →
      (∀ target, entry ≠ .link target) ∧ s.entryAt (root ++ path).dropLast = some .directory ∧
      (∀ name ∈ path, IsName name ∧ name.utf8ByteSize ≤ maxNameBytes) ∧
      (Place.text (root ++ path)).utf8ByteSize ≤ maxPathBytes := by
    intro path entry hne h
    have htest := hentry path entry hne h
    simp only [isPlainEntry, Bool.and_eq_true, beq_iff_eq, decide_eq_true_eq, List.all_eq_true,
      List.drop_left] at htest
    obtain ⟨⟨⟨hlink, habove⟩, hnames⟩, hsize⟩ := htest
    refine ⟨fun target heq => ?_, habove, hnames, hsize⟩
    rw [heq] at hlink
    cases hlink
  have hlookUp : ∀ path, (s.entryAt (root ++ path)).isSome →
      (∀ name ∈ path, IsName name ∧ name.utf8ByteSize ≤ maxNameBytes) ∧
        (Place.text (root ++ path)).utf8ByteSize ≤ maxPathBytes := by
    intro path h
    obtain ⟨entry, h⟩ := Option.isSome_iff_exists.mp h
    by_cases hne : path = []
    · subst hne
      exact ⟨fun name hname => absurd hname List.not_mem_nil, by rwa [List.append_nil]⟩
    · exact (hplain path entry hne h).2.2
  refine ⟨hnodup, hdir, fun path target h => ?_, fun path name h => ?_,
    fun path h name hname => ((hlookUp path h).1 name hname).1,
    fun path h name hname => ((hlookUp path h).1 name hname).2, fun path h => (hlookUp path h).2⟩
  · by_cases hne : path = []
    · rw [hne, List.append_nil, hdir] at h
      cases h
    · exact (hplain path _ hne h).1 target rfl
  · obtain ⟨entry, h⟩ := Option.isSome_iff_exists.mp h
    have hne : path ++ [name] ≠ [] := List.append_ne_nil_of_right_ne_nil path (List.cons_ne_nil _ _)
    have habove := (hplain _ entry hne h).2.1
    rwa [← List.append_assoc, List.dropLast_concat] at habove

namespace Snapshot.Plain

variable {s : Snapshot} {root : Place}

/-- Whatever lies above an entry is a directory. -/
theorem directory_above (hp : s.Plain root) {path below : List String} (hne : below ≠ [])
    (h : (s.entryAt (root ++ (path ++ below))).isSome) :
    s.entryAt (root ++ path) = some .directory := by
  induction below using List.reverseRecOn with
  | nil => exact absurd rfl hne
  | append_singleton below name ih =>
      rw [← List.append_assoc path] at h
      have hdir := hp.in_directory (path ++ below) name h
      by_cases hbelow : below = []
      · rwa [hbelow, List.append_nil] at hdir
      · exact ih hbelow (by rw [hdir]; rfl)

/-- Names of an entry are followed to its place. -/
theorem follow_eq (hp : s.Plain root) {budget : Nat} {path names : List String}
    (h : (s.entryAt (root ++ (path ++ names))).isSome) :
    s.follow .look budget (root ++ path) names = .ok (root ++ (path ++ names)) := by
  induction names generalizing path with
  | nil => rw [Snapshot.follow, List.append_nil]
  | cons name rest ih =>
      have hmem : name ∈ path ++ name :: rest := List.mem_append_right _ List.mem_cons_self
      have hstep : path ++ name :: rest = (path ++ [name]) ++ rest := by
        rw [List.append_assoc, List.singleton_append]
      have hdir := hp.directory_above (List.cons_ne_nil name rest) h
      have hhere : (s.entryAt (root ++ (path ++ [name]))).isSome := by
        by_cases hrest : rest = []
        · rwa [hrest] at h
        · rw [hp.directory_above hrest (hstep ▸ h)]
          rfl
      obtain ⟨entry, hentry⟩ := Option.isSome_iff_exists.mp hhere
      have hlink : ∀ target, entry ≠ .link target := by
        rintro target rfl
        exact hp.no_link _ target hentry
      have hslash : isSlashEnd rest = false := isSlashEnd_of_isName fun other hother =>
        hp.isName _ h other (List.mem_append_right _ (List.mem_cons_of_mem name hother))
      rw [Snapshot.follow_cons hdir (hp.isName _ h name hmem) (hp.name_size _ h name hmem) hslash
        (by rw [List.append_assoc]; exact hentry) hlink, List.append_assoc,
        ih (hstep ▸ h), ← hstep]

/-- Names of an entry are followed from the root to its place. -/
theorem follow_root (hp : s.Plain root) {path : List String}
    (h : (s.entryAt (root ++ path)).isSome) :
    s.follow .look maxLinks root path = .ok (root ++ path) := by
  have hfollow : s.follow .look maxLinks (root ++ []) path = .ok (root ++ ([] ++ path)) :=
    hp.follow_eq h
  rwa [List.append_nil, List.nil_append] at hfollow

/-- The path of an entry leads to its place. -/
theorem locate_join (hp : s.Plain root) {path : List String}
    (h : (s.entryAt (root ++ path)).isSome) : s.locate root (join path) = .ok (root ++ path) := by
  rw [Snapshot.locate_join_of_isName s root (hp.isName path h),
    if_neg (Nat.not_lt.mpr (hp.path_size path h)), hp.follow_root h]

theorem find_eq (hp : s.Plain root) {path : List String} {entry : Entry}
    (h : s.entryAt (root ++ path) = some entry) :
    s.find? root path = some (root ++ path, entry) :=
  find_eq_some_iff.mpr ⟨hp.locate_join (by rw [h]; rfl), h⟩

/-- Under the path of an entry nothing else is found. -/
theorem find_iff (hp : s.Plain root) {path : List String} {target : Place} {entry : Entry}
    (h : (s.entryAt (root ++ path)).isSome) :
    s.find? root path = some (target, entry) ↔
      target = root ++ path ∧ s.entryAt target = some entry := by
  rw [find_eq_some_iff, hp.locate_join h, Except.ok.injEq, eq_comm]

theorem isFile_join (hp : s.Plain root) {path : List String} {content : List UInt8}
    (h : s.entryAt (root ++ path) = some (.file content)) : s.isFile root (join path) = true :=
  isFile_of_find (hp.find_eq h)

theorem read_join (hp : s.Plain root) {path : List String} {content : List UInt8}
    (h : s.entryAt (root ++ path) = some (.file content)) :
    s.read? root (join path) = some content := by
  have hlocate := hp.locate_join (by rw [h]; rfl)
  simp only [read?, hlocate, h]

theorem isTooLong_join (hp : s.Plain root) {path : List String}
    (h : (s.entryAt (root ++ path)).isSome) : s.isTooLong root (join path) = false := by
  simp only [isTooLong, hp.locate_join h]

/-! ## Directories of a plain repository -/

theorem mem_filesIn (hp : s.Plain root) {path : List String} {name : String} :
    name ∈ s.filesIn root path (root ++ path) ↔
      ∃ content, s.entryAt (root ++ (path ++ [name])) = some (.file content) := by
  rw [mem_filesIn_iff, mem_namesIn, List.append_assoc]
  constructor
  · rintro ⟨hsome, target, content, hfind⟩
    obtain ⟨rfl, hentry⟩ := (hp.find_iff hsome).mp hfind
    exact ⟨content, hentry⟩
  · rintro ⟨content, hentry⟩
    exact ⟨by rw [hentry]; rfl, _, content, hp.find_eq hentry⟩

theorem nodup_namesIn (hp : s.Plain root) (place : Place) : (s.namesIn place).Nodup :=
  nodup_namesIn_of_nodup hp.nodup place

end Snapshot.Plain

/-! ## The walk -/

/-- A file below a directory that the walk can come to from there: it may enter every directory on
the way. -/
def Reached (s : Snapshot) (root : Place) (enter : List String → Bool) (dir file : List String) :
    Prop :=
  ∃ names, names ≠ [] ∧ file = dir ++ names ∧
    (∃ content, s.entryAt (root ++ file) = some (.file content)) ∧
    ∀ q, q ≠ [] → q <+: names → q ≠ names → enter (dir ++ q) = true

/-- The directories that the walk enters from a directory. -/
def entered (s : Snapshot) (root : Place) (enter : List String → Bool) (d : Pending) :
    List Pending :=
  (((s.subdirectories root d.path d.place).mergeSort fun a b => decide (a.1 ≤ b.1)).map
    fun (name, place) => Pending.mk (d.path ++ [name]) place).filter (enter ·.path)

section Walk

variable {s : Snapshot} {root : Place} {enter : List String → Bool}

/-- A file is reached from a directory if it lies in it, or is reached from a directory in it that
may be entered. -/
theorem reached_iff (hp : s.Plain root) {dir file : List String} :
    Reached s root enter dir file ↔
      (∃ name content, file = dir ++ [name] ∧ s.entryAt (root ++ file) = some (.file content)) ∨
      ∃ name, s.entryAt (root ++ (dir ++ [name])) = some .directory ∧
        enter (dir ++ [name]) = true ∧ Reached s root enter (dir ++ [name]) file := by
  constructor
  · rintro ⟨names, hne, rfl, ⟨content, hfile⟩, henter⟩
    obtain ⟨name, rest, rfl⟩ := List.exists_cons_of_ne_nil hne
    by_cases hrest : rest = []
    · subst hrest
      exact .inl ⟨name, content, rfl, hfile⟩
    · have hsplit : dir ++ name :: rest = (dir ++ [name]) ++ rest := by
        rw [List.append_assoc, List.singleton_append]
      refine .inr ⟨name, ?_, ?_, rest, hrest, hsplit, ⟨content, hfile⟩, fun q hq hpre hqne => ?_⟩
      · exact hp.directory_above hrest (by rw [← hsplit, hfile]; rfl)
      · refine henter [name] (List.cons_ne_nil name []) ⟨rest, rfl⟩ fun heq => hrest ?_
        exact (List.cons.inj heq).2.symm
      · rw [List.append_assoc, List.singleton_append]
        refine henter (name :: q) (List.cons_ne_nil name q) ?_ fun heq => hqne (List.cons.inj heq).2
        exact List.cons_prefix_cons.mpr ⟨rfl, hpre⟩
  · rintro (⟨name, content, rfl, hfile⟩ | ⟨name, -, henter, names, hne, rfl, hfile, hall⟩)
    · refine ⟨[name], List.cons_ne_nil name [], rfl, ⟨content, hfile⟩, fun q hq hpre hqne => ?_⟩
      rcases List.prefix_cons_iff.mp hpre with rfl | ⟨t, rfl, ht⟩
      · exact absurd rfl hq
      · exact absurd (by rw [List.prefix_nil.mp ht]) hqne
    · refine ⟨name :: names, List.cons_ne_nil name names, ?_, hfile, fun q hq hpre hqne => ?_⟩
      · rw [List.append_assoc, List.singleton_append]
      · rcases List.prefix_cons_iff.mp hpre with rfl | ⟨t, rfl, ht⟩
        · exact absurd rfl hq
        · by_cases htne : t = []
          · rwa [htne]
          · have := hall t htne ht fun heq => hqne (by rw [heq])
            rwa [List.append_assoc, List.singleton_append] at this

/-- The directories that are entered are found below it under its names. -/
theorem mem_entered_iff {d e : Pending} :
    e ∈ entered s root enter d ↔ ∃ name ∈ s.namesIn d.place, e.path = d.path ++ [name] ∧
      s.find? root e.path = some (e.place, .directory) ∧ enter e.path = true := by
  rw [entered, List.mem_filter, List.mem_map]
  constructor
  · rintro ⟨⟨⟨name, place⟩, hmem, rfl⟩, henter⟩
    obtain ⟨hname, hfind⟩ := Snapshot.mem_subdirectories_iff.mp (List.mem_mergeSort.mp hmem)
    exact ⟨name, hname, rfl, hfind, henter⟩
  · obtain ⟨path, place⟩ := e
    rintro ⟨name, hname, rfl, hfind, henter⟩
    have hmem := Snapshot.mem_subdirectories_iff.mpr ⟨hname, hfind⟩
    exact ⟨⟨(name, place), List.mem_mergeSort.mpr hmem, rfl⟩, henter⟩

theorem mem_entered (hp : s.Plain root) {d e : Pending} (hd : d.place = root ++ d.path) :
    e ∈ entered s root enter d ↔
      ∃ name, e.path = d.path ++ [name] ∧ e.place = root ++ e.path ∧
        s.entryAt e.place = some .directory ∧ enter e.path = true := by
  have hnamesIn : ∀ name, e.path = d.path ++ [name] →
      (name ∈ s.namesIn d.place ↔ (s.entryAt (root ++ e.path)).isSome) := by
    intro name hpath
    rw [Snapshot.mem_namesIn, hd, List.append_assoc, hpath]
  rw [mem_entered_iff]
  constructor
  · rintro ⟨name, hname, hpath, hfind, henter⟩
    obtain ⟨hplace, hdir⟩ := (hp.find_iff ((hnamesIn name hpath).mp hname)).mp hfind
    exact ⟨name, hpath, hplace, hdir, henter⟩
  · rintro ⟨name, hpath, hplace, hdir, henter⟩
    have hsome : (s.entryAt (root ++ e.path)).isSome := by
      rw [← hplace, hdir]
      rfl
    exact ⟨name, (hnamesIn name hpath).mpr hsome, hpath,
      (hp.find_iff hsome).mpr ⟨hplace, hdir⟩, henter⟩

/-- What the walk keeps: the pending places are directories of the repository of which none lies
inside another, and no directory at or below them has been visited. -/
structure Fresh (s : Snapshot) (root : Place) (unvisited : List Place) (pending : List Pending) :
    Prop where
  place_eq : ∀ d ∈ pending, d.place = root ++ d.path
  directory : ∀ d ∈ pending, s.entryAt d.place = some .directory
  apart : pending.Pairwise fun a b => ¬ a.path <+: b.path ∧ ¬ b.path <+: a.path
  unvisited : ∀ d ∈ pending, ∀ q, s.entryAt (root ++ (d.path ++ q)) = some .directory →
    root ++ (d.path ++ q) ∈ unvisited

theorem entered_apart (hp : s.Plain root) (d : Pending) :
    (entered s root enter d).Pairwise fun a b => ¬ a.path <+: b.path ∧ ¬ b.path <+: a.path := by
  have hnames : ((s.subdirectories root d.path d.place).mergeSort
      fun a b => decide (a.1 ≤ b.1)).Pairwise (fun a b => a.1 ≠ b.1) := by
    have hsub : (s.subdirectories root d.path d.place).Pairwise (fun a b => a.1 ≠ b.1) := by
      rw [Snapshot.subdirectories, List.pairwise_filterMap]
      refine (hp.nodup_namesIn d.place).imp fun {a b} hab x hx y hy heq => hab ?_
      have hx : x.1 = a := by
        split at hx
        · cases hx
          rfl
        · cases hx
      have hy : y.1 = b := by
        split at hy
        · cases hy
          rfl
        · cases hy
      rw [← hx, ← hy, heq]
    exact ((List.mergeSort_perm _ _).pairwise_iff fun h => h.symm).mpr hsub
  refine List.Pairwise.filter _ (List.pairwise_map.mpr (hnames.imp fun {a b} hab => ?_))
  have hlen : (d.path ++ [a.1]).length = (d.path ++ [b.1]).length := by simp
  constructor
  · intro hpre
    exact hab (by simpa using hpre.eq_of_length hlen)
  · intro hpre
    exact hab (by simpa using (hpre.eq_of_length hlen.symm).symm)

/-- Visiting a directory keeps the invariant. -/
theorem Fresh.visit (hp : s.Plain root) {unvisited : List Place} {d : Pending}
    {rest : List Pending} (h : Fresh s root unvisited (d :: rest)) :
    Fresh s root (unvisited.erase d.place) (entered s root enter d ++ rest) := by
  have hd := h.place_eq d List.mem_cons_self
  obtain ⟨hapart, hrest⟩ := List.pairwise_cons.mp h.apart
  have hentered : ∀ {e : Pending}, e ∈ entered s root enter d → ∃ name, e.path = d.path ++ [name] ∧
      e.place = root ++ e.path ∧ s.entryAt e.place = some .directory ∧ enter e.path = true :=
    fun he => (mem_entered hp hd).mp he
  constructor
  · intro e he
    rcases List.mem_append.mp he with he | he
    · obtain ⟨-, -, hplace, -⟩ := hentered he
      exact hplace
    · exact h.place_eq e (List.mem_cons_of_mem d he)
  · intro e he
    rcases List.mem_append.mp he with he | he
    · obtain ⟨-, -, -, hdir, -⟩ := hentered he
      exact hdir
    · exact h.directory e (List.mem_cons_of_mem d he)
  · refine List.pairwise_append.mpr ⟨entered_apart hp d, hrest, fun e he r hr => ?_⟩
    obtain ⟨name, hpath, -⟩ := hentered he
    obtain ⟨hdr, hrd⟩ := hapart r hr
    rw [hpath]
    constructor
    · exact fun hpre => hdr ((List.prefix_append d.path [name]).trans hpre)
    · intro hpre
      rcases List.prefix_concat_iff.mp hpre with heq | hpre
      · exact hdr (heq ▸ List.prefix_append d.path [name])
      · exact hrd hpre
  · -- The directory that is visited now is neither below an entered one nor below a pending one.
    intro e he q hq
    rcases List.mem_append.mp he with he | he
    · obtain ⟨name, hpath, -⟩ := hentered he
      rw [hpath, List.append_assoc] at hq ⊢
      refine (List.mem_erase_of_ne fun heq => ?_).mpr (h.unvisited d List.mem_cons_self _ hq)
      rw [hd] at heq
      have hlen := congrArg List.length heq
      simp at hlen
    · refine (List.mem_erase_of_ne fun heq => ?_).mpr
        (h.unvisited e (List.mem_cons_of_mem d he) q hq)
      rw [hd] at heq
      exact (hapart e he).2 ⟨q, List.append_cancel_left heq⟩

/-- The files in a directory, and the directories that are entered from it, account for all files
that are reached from it. -/
theorem reached_iff_entered (hp : s.Plain root) {d : Pending} (hd : d.place = root ++ d.path)
    {file : List String} :
    Reached s root enter d.path file ↔
      (∃ name ∈ s.filesIn root d.path d.place, d.path ++ [name] = file) ∨
      ∃ e ∈ entered s root enter d, Reached s root enter e.path file := by
  rw [reached_iff hp]
  refine or_congr ?_ ?_
  · constructor
    · rintro ⟨name, content, rfl, hfile⟩
      exact ⟨name, by rw [hd]; exact hp.mem_filesIn.mpr ⟨content, hfile⟩, rfl⟩
    · rintro ⟨name, hname, rfl⟩
      rw [hd] at hname
      obtain ⟨content, hfile⟩ := hp.mem_filesIn.mp hname
      exact ⟨name, content, rfl, hfile⟩
  · constructor
    · rintro ⟨name, hdir, henter, hreached⟩
      exact ⟨⟨d.path ++ [name], root ++ (d.path ++ [name])⟩,
        (mem_entered hp hd).mpr ⟨name, rfl, rfl, hdir, henter⟩, hreached⟩
    · rintro ⟨e, he, hreached⟩
      obtain ⟨name, hpath, hplace, hdir, henter⟩ := (mem_entered hp hd).mp he
      rw [hplace, hpath] at hdir
      rw [hpath] at henter hreached
      exact ⟨name, hdir, henter, hreached⟩

/-- **The walk** comes across exactly the files that are reached from the pending directories. -/
theorem mem_walk_iff (hp : s.Plain root) {unvisited : List Place} {pending : List Pending}
    (h : Fresh s root unvisited pending) {file : List String} :
    .file file ∈ walk s root enter unvisited pending ↔
      ∃ d ∈ pending, Reached s root enter d.path file := by
  fun_induction walk s root enter unvisited pending with
  | case1 unvisited => simp
  | case2 unvisited d rest hmem files below inside ih =>
      have hd := h.place_eq d List.mem_cons_self
      have hfiles : Encounter.file file ∈ files ↔
          ∃ name ∈ s.filesIn root d.path d.place, d.path ++ [name] = file := by
        rw [List.mem_map]
        simp only [Encounter.file.injEq]
      have hbelow : (∃ e ∈ inside ++ rest, Reached s root enter e.path file) ↔
          (∃ e ∈ entered s root enter d, Reached s root enter e.path file) ∨
            ∃ e ∈ rest, Reached s root enter e.path file := by
        simp only [List.mem_append, or_and_right, exists_or]
        rfl
      rw [List.mem_append, ih (h.visit hp), hfiles, hbelow, ← or_assoc,
        ← reached_iff_entered hp hd]
      simp only [List.mem_cons, or_and_right, exists_or, exists_eq_left]
  | case3 unvisited d rest hmem ih =>
      -- A pending directory has not been visited.
      have hfresh := h.unvisited d List.mem_cons_self []
      rw [List.append_nil, ← h.place_eq d List.mem_cons_self] at hfresh
      exact absurd (hfresh (h.directory d List.mem_cons_self)) hmem

/-- The files that the walk comes across are regular files, in any repository. -/
theorem isFile_of_mem_walk {unvisited : List Place} {pending : List Pending} {file : List String}
    (h : .file file ∈ walk s root enter unvisited pending) : s.isFile root (join file) = true := by
  fun_induction walk s root enter unvisited pending with
  | case1 unvisited => cases h
  | case2 unvisited d rest hmem files below inside ih =>
      rcases List.mem_append.mp h with h | h
      · obtain ⟨name, hname, heq⟩ := List.mem_map.mp h
        cases heq
        exact Snapshot.isFile_of_mem_filesIn hname
      · exact ih h
  | case3 unvisited d rest hmem ih =>
      rcases List.mem_cons.mp h with h | h
      · cases h
      · exact ih h

/-- Every directory is unvisited at first. -/
theorem fresh_root (hp : s.Plain root) : Fresh s root s.directories [⟨[], root⟩] := by
  constructor
  · intro d hd
    rw [List.mem_singleton.mp hd, List.append_nil]
  · intro d hd
    rw [List.mem_singleton.mp hd]
    exact hp.root_directory
  · exact List.pairwise_singleton _ _
  · intro d _ q hq
    exact Snapshot.mem_directories hq

end Walk

end CodeChallenges.Repository
