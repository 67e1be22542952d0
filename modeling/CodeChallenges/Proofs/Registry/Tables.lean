import CodeChallenges.Proofs.Registry
import CodeChallenges.Registry.Tables
/-!
# Indexes of the registry

An index holds under each key the last language that has this key (`lookup_index`), whatever it held
before on the way.  Every change makes both indexes anew from the languages that are left, so no
entry of an index outlives its language: after every sequence of calls the tables hold the languages
of the registry and answer as it does (`tables_agree`).
-/

namespace CodeChallenges.Registry

/-! ## Entries -/

namespace Table

theorem lookup_cons_eq_ite (key : String) (l : Language) (table : Table) (k : String) :
    List.lookup k ((key, l) :: table) = if k = key then some l else table.lookup k := by
  rw [List.lookup_cons]
  by_cases hk : k = key
  · rw [if_pos hk, beq_iff_eq.mpr hk]
  · rw [if_neg hk, beq_eq_false_iff_ne.mpr hk]

/-- What is set is found under its key, and nothing else changes. -/
theorem lookup_set (key : String) (l : Language) (table : Table) (k : String) :
    (set key l table).lookup k = if k = key then some l else table.lookup k := by
  induction table with
  | nil => exact lookup_cons_eq_ite key l [] k
  | cons entry rest ih =>
      obtain ⟨other, m⟩ := entry
      by_cases hother : other = key
      · rw [set, if_pos (beq_iff_eq.mpr hother), lookup_cons_eq_ite, lookup_cons_eq_ite, hother]
        split
        · rfl
        · rfl
      · rw [set, if_neg (fun h => hother (beq_iff_eq.mp h)), lookup_cons_eq_ite,
          lookup_cons_eq_ite, ih]
        by_cases hk : k = other
        · rw [if_pos hk, if_pos hk, if_neg fun heq => hother (hk.symm.trans heq)]
        · rw [if_neg hk, if_neg hk]

theorem lookup_setAll (table : Table) (l : Language) (keys : List String) (k : String) :
    (table.setAll l keys).lookup k = if k ∈ keys then some l else table.lookup k := by
  induction keys generalizing table with
  | nil => rw [if_neg List.not_mem_nil, setAll, List.foldl_nil]
  | cons key keys ih =>
      rw [setAll, List.foldl_cons, ← setAll, ih, lookup_set]
      by_cases hk : k = key
      · rw [if_pos hk, if_pos (List.mem_cons.mpr (.inl hk)), ite_self]
      · rw [if_neg hk]
        have hmem : k ∈ key :: keys ↔ k ∈ keys := by
          rw [List.mem_cons]
          exact or_iff_right hk
        simp only [hmem]

/-- An index holds under each key the last language that has it. -/
theorem lookup_index (keysOf : Language → List String) (languages : List Language) (k : String) :
    (index keysOf languages).lookup k =
      languages.reverse.find? fun l => (keysOf l).contains k := by
  have hfrom : ∀ table : Table,
      (languages.foldl (fun table l => table.setAll l (keysOf l)) table).lookup k =
        (languages.reverse.find? fun l => (keysOf l).contains k).or (table.lookup k) := by
    induction languages with
    | nil =>
        intro table
        rfl
    | cons l languages ih =>
        intro table
        rw [List.foldl_cons, ih, lookup_setAll, List.reverse_cons, List.find?_append, Option.or_assoc]
        by_cases hk : k ∈ keysOf l
        · rw [if_pos hk, List.find?_singleton, if_pos (List.contains_iff_mem.mpr hk), Option.some_or]
        · rw [if_neg hk, List.find?_singleton, if_neg fun h => hk (List.contains_iff_mem.mp h),
            Option.none_or]
  rw [index, hfrom, List.lookup_nil, Option.or_none]

end Table

/-! ## The tables of a registry -/

/-- The entries of languages under their keys. -/
def entriesOf (languages : List Language) : Table :=
  languages.map fun l => (keyOf l, l)

theorem languages_entriesOf (languages : List Language) :
    (entriesOf languages).languages = languages := by
  rw [Table.languages, entriesOf, List.map_map]
  exact List.map_id languages

theorem set_entriesOf (l : Language) (languages : List Language) :
    (entriesOf languages).set (keyOf l) l = entriesOf (insert l languages) := by
  induction languages with
  | nil => rfl
  | cons m rest ih =>
      rw [insert]
      show (if keyOf m == keyOf l then (keyOf l, l) :: entriesOf rest
        else (keyOf m, m) :: (entriesOf rest).set (keyOf l) l) = _
      split
      · rfl
      · rw [ih]
        rfl

theorem erase_entriesOf (key : String) (languages : List Language) :
    (entriesOf languages).erase key = entriesOf (languages.filter fun l => keyOf l != key) := by
  have hkeys : ((fun entry : String × Language => entry.1 != key) ∘ fun l => (keyOf l, l)) =
      fun l => keyOf l != key := by
    funext l
    rw [Function.comp_apply]
  rw [Table.erase, entriesOf, List.filter_map, hkeys, entriesOf]

theorem lookup_entriesOf_eq_none_iff {key : String} {languages : List Language} :
    (entriesOf languages).lookup key = none ↔ ∀ l ∈ languages, keyOf l ≠ key := by
  rw [List.lookup_eq_none_iff, entriesOf, List.forall_mem_map]
  refine forall₂_congr fun l _ => ?_
  rw [bne_iff_ne]
  exact ne_comm

/-- The tables that hold the languages of a registry. -/
def tables (r : Registry) : Tables :=
  .ofEntries (entriesOf r.languages)

theorem register_eq_refusal (r : Registry) (l : Language) :
    r.register l =
      match refusal? l with
      | some fault => .error fault
      | none => .ok ⟨insert l r.languages⟩ := by
  unfold register refusal?
  split
  · rfl
  · split <;> rfl

/-- Registering a language changes the tables as it changes the registry, or is refused by both. -/
theorem register_tables (r : Registry) (l : Language) :
    r.tables.register l = (r.register l).map tables := by
  rw [register_eq_refusal, Tables.register]
  cases refusal? l with
  | some fault => rfl
  | none =>
      show Except.ok (Tables.ofEntries ((entriesOf r.languages).set (keyOf l) l)) = _
      rw [set_entriesOf]
      rfl

/-- So does unregistering a name. -/
theorem unregister_tables (r : Registry) (name : String) :
    r.tables.unregister name = (r.unregister name).tables := by
  have hentries : r.tables.entries = entriesOf r.languages := rfl
  rw [Tables.unregister, hentries]
  split
  · rw [erase_entriesOf]
    rfl
  · rename_i hnone
    rw [Bool.not_eq_true, Option.isSome_eq_false_iff, Option.isNone_iff_eq_none,
      lookup_entriesOf_eq_none_iff] at hnone
    have hall : (r.unregister name).languages = r.languages :=
      List.filter_eq_self.mpr fun l hl => bne_iff_ne.mpr (hnone l hl)
    rw [tables, tables, hall]

/-! ## Look-up -/

theorem lookup_byExtension (r : Registry) (extension : String) :
    r.tables.byExtension.lookup extension = r.byExtension extension := by
  have hindex : r.tables.byExtension =
      Table.index (·.extensions) (entriesOf r.languages).languages := rfl
  rw [hindex, languages_entriesOf, Table.lookup_index, byExtension, findLast]

theorem lookup_byAlias (r : Registry) (key : String) :
    r.tables.byAlias.lookup key = r.byKey key := by
  have hkeys : (fun l => (aliasKeys l).contains key) = answersTo key := by
    funext l
    rw [aliasKeys, answersTo, List.contains_eq_any_beq, List.any_map]
    exact List.any_congr rfl fun a => BEq.comm
  have hindex : r.tables.byAlias = Table.index aliasKeys (entriesOf r.languages).languages := rfl
  rw [hindex, languages_entriesOf, Table.lookup_index, byKey, findLast, hkeys]

theorem byName_tables (r : Registry) (name : String) : r.tables.byName name = r.byName name :=
  lookup_byAlias r _

theorem forPath_tables (r : Registry) (path : String) : r.tables.forPath path = r.forPath path := by
  simp only [Tables.forPath, forPath, lookup_byExtension]

theorem resolve_tables (r : Registry) (key : String) : r.tables.resolve key = r.resolve key := by
  simp only [Tables.resolve, resolve, lookup_byExtension, lookup_byAlias]

/-! ## Sequences of calls -/

namespace Tables

/-- The tables after a call; a call that is refused changes nothing. -/
def call (t : Tables) : Call → Tables
  | .register l =>
    match t.register l with
    | .ok t' => t'
    | .error _ => t
  | .unregister name => t.unregister name

/-- The tables after a sequence of calls. -/
def after (t : Tables) (calls : List Call) : Tables :=
  calls.foldl call t

end Tables

theorem call_tables (r : Registry) (c : Call) : r.tables.call c = (r.call c).tables := by
  cases c with
  | register l =>
      rw [Tables.call, call, register_tables]
      cases r.register l <;> rfl
  | unregister name => exact unregister_tables r name

theorem after_tables (r : Registry) (calls : List Call) :
    r.tables.after calls = (r.after calls).tables := by
  induction calls generalizing r with
  | nil => rfl
  | cons c calls ih =>
      show (r.tables.call c).after calls = ((r.call c).after calls).tables
      rw [call_tables, ih]

/-- The languages at the start stand in the tables as they stand in the registry. -/
theorem builtIn_tables : Tables.builtIn = builtIn.tables := by
  have hput : ∀ languages done : List Language, ((done ++ languages).map keyOf).Nodup →
      languages.foldl (fun entries l => entries.set (keyOf l) l) (entriesOf done) =
        entriesOf (done ++ languages) := by
    intro languages
    induction languages with
    | nil =>
        intro done _
        rw [List.append_nil]
        rfl
    | cons l languages ih =>
        intro done hkeys
        have hnew : ∀ m ∈ done, keyOf m ≠ keyOf l := by
          intro m hm
          rw [List.map_append, List.nodup_append] at hkeys
          exact hkeys.2.2 _ (List.mem_map_of_mem hm) _ (List.mem_map_of_mem List.mem_cons_self)
        rw [List.foldl_cons, set_entriesOf, insert_of_new hnew]
        rw [List.append_cons done l languages] at hkeys ⊢
        exact ih (done ++ [l]) hkeys
  rw [Tables.builtIn, tables]
  exact congrArg Tables.ofEntries (hput BuiltIn.languages [] builtIn_keyed)

/-- **The tables agree with the registry** after every sequence of calls. -/
theorem tables_agree (calls : List Call) :
    Tables.builtIn.after calls = (builtIn.after calls).tables := by
  rw [builtIn_tables, after_tables]

end CodeChallenges.Registry
