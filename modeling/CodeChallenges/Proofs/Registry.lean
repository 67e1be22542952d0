import CodeChallenges.Proofs.Language
import CodeChallenges.Proofs.Outcome
import CodeChallenges.Registry
import Mathlib.Data.List.Nodup
/-!
# The registry as it changes

Every state of the registry is reached from the languages at the start by calls that register or
unregister one language.  Each call keeps the keys of the languages apart (`Keyed.call`), so they
are apart after every sequence of calls (`keyed_after`).

Names and aliases share one look-up in which the last language wins.  A language is found by its
own name exactly if no later language has an alias that reads the same (`byName_self_iff`).
-/

namespace CodeChallenges

/-- One of the aliases of a language reads like the name of another. -/
def Language.Hides (m l : Language) : Prop :=
  ∃ a ∈ m.aliases, Language.normalize a = Language.normalize l.name

instance (m l : Language) : Decidable (m.Hides l) :=
  inferInstanceAs (Decidable (∃ a ∈ m.aliases, _))

namespace Registry

/-! ## Look-up -/

/-- The last language that satisfies a test satisfies it, and none after it does. -/
theorem findLast_eq_some_iff {r : Registry} {p : Language → Bool} {l : Language} :
    r.findLast p = some l ↔
      p l = true ∧ ∃ before rest, r.languages = before ++ l :: rest ∧ ∀ m ∈ rest, p m = false := by
  rw [findLast, List.find?_eq_some_iff_append]
  constructor
  · rintro ⟨hp, rest, before, hreverse, hrest⟩
    refine ⟨hp, before.reverse, rest.reverse, ?_, ?_⟩
    · rw [← List.reverse_reverse r.languages, hreverse]
      simp
    · intro m hm
      have hnot := hrest m (List.mem_reverse.mp hm)
      rwa [Bool.not_eq_true'] at hnot
  · rintro ⟨hp, before, rest, hlanguages, hrest⟩
    refine ⟨hp, rest.reverse, before.reverse, ?_, ?_⟩
    · rw [hlanguages]
      simp
    · intro m hm
      rw [Bool.not_eq_true']
      exact hrest m (List.mem_reverse.mp hm)

theorem answersTo_iff {key : String} {l : Language} :
    answersTo key l = true ↔ keyOf l = key ∨ ∃ a ∈ l.aliases, Language.normalize a = key := by
  simp only [answersTo, keyOf, List.any_cons, List.any_eq_true, Bool.or_eq_true, beq_iff_eq]

/-- A language that has another key answers to a name only if it hides the name. -/
theorem answersTo_keyOf_iff {l m : Language} (hkey : keyOf m ≠ keyOf l) :
    answersTo (keyOf l) m = true ↔ m.Hides l := by
  rw [answersTo_iff]
  exact or_iff_right hkey

/-! ## Keys -/

/-- No two languages have one key. -/
def Keyed (r : Registry) : Prop :=
  (r.languages.map keyOf).Nodup

theorem Keyed.ne_of_mem {r : Registry} (hk : r.Keyed) {before rest : List Language} {l m : Language}
    (h : r.languages = before ++ l :: rest) (hm : m ∈ before ∨ m ∈ rest) : keyOf m ≠ keyOf l := by
  rw [Keyed, h, List.map_append, List.map_cons, List.nodup_middle, List.nodup_cons] at hk
  intro heq
  refine hk.1 ?_
  rw [← heq, List.mem_append]
  rcases hm with hm | hm
  · exact .inl (List.mem_map_of_mem hm)
  · exact .inr (List.mem_map_of_mem hm)

/-- A language has one place among the languages. -/
theorem Keyed.rest_unique {r : Registry} (hk : r.Keyed) {before rest before' rest' : List Language}
    {l : Language} (h : r.languages = before ++ l :: rest)
    (h' : r.languages = before' ++ l :: rest') : rest = rest' := by
  have hnot : l ∉ before ∧ l ∉ before' := by
    constructor
    · intro hl
      exact hk.ne_of_mem h (.inl hl) rfl
    · intro hl
      exact hk.ne_of_mem h' (.inl hl) rfl
  rw [h] at h'
  rcases List.append_eq_append_iff.mp h' with ⟨more, hmore, hrest⟩ | ⟨more, hmore, hrest⟩
  · cases more with
    | nil => exact (List.cons.inj hrest).2
    | cons m more =>
        obtain ⟨rfl, -⟩ := List.cons.inj hrest
        exact absurd (hmore ▸ List.mem_append_right before List.mem_cons_self) hnot.2
  · cases more with
    | nil => exact (List.cons.inj hrest).2.symm
    | cons m more =>
        obtain ⟨rfl, -⟩ := List.cons.inj hrest
        exact absurd (hmore ▸ List.mem_append_right before' List.mem_cons_self) hnot.1

/-- **A language is found by its own name** exactly if no later one has an alias like it. -/
theorem byName_self_iff {r : Registry} (hk : r.Keyed) {before rest : List Language} {l : Language}
    (h : r.languages = before ++ l :: rest) :
    r.byName l.name = some l ↔ ∀ m ∈ rest, ¬ m.Hides l := by
  have hsilent : ∀ m ∈ rest, answersTo (keyOf l) m = false ↔ ¬ m.Hides l := by
    intro m hm
    rw [← answersTo_keyOf_iff (hk.ne_of_mem h (.inr hm)), Bool.not_eq_true]
  have hself : answersTo (keyOf l) l = true := answersTo_iff.mpr (.inl rfl)
  show r.findLast (answersTo (keyOf l)) = some l ↔ _
  rw [findLast_eq_some_iff]
  constructor
  · rintro ⟨-, before', rest', h', hrest⟩
    rw [← hk.rest_unique h h'] at hrest
    intro m hm
    exact (hsilent m hm).mp (hrest m hm)
  · intro hrest
    refine ⟨hself, before, rest, h, ?_⟩
    intro m hm
    exact (hsilent m hm).mpr (hrest m hm)

/-- The last language is found by its own name. -/
theorem byName_of_last {r : Registry} (hk : r.Keyed) {before : List Language} {l : Language}
    (h : r.languages = before ++ [l]) : r.byName l.name = some l :=
  (byName_self_iff hk h).mpr (List.forall_mem_nil _)

/-! ## Registering and unregistering -/

theorem register_eq_ok_iff {r r' : Registry} {l : Language} :
    r.register l = .ok r' ↔
      keyOf l ≠ "" ∧ l.extensions ≠ [] ∧ r' = ⟨insert l r.languages⟩ := by
  unfold register
  split
  · rename_i hkey
    rw [beq_iff_eq] at hkey
    exact iff_of_false (by simp) fun h => h.1 hkey
  · rename_i hkey
    rw [beq_iff_eq] at hkey
    split
    · rename_i hextensions
      rw [List.isEmpty_iff] at hextensions
      exact iff_of_false (by simp) fun h => h.2.1 hextensions
    · rename_i hextensions
      rw [List.isEmpty_iff] at hextensions
      rw [Except.ok.injEq, eq_comm]
      exact ⟨fun h => ⟨hkey, hextensions, h⟩, fun h => h.2.2⟩

/-- A language with a new key comes after all others. -/
theorem insert_of_new {l : Language} {languages : List Language}
    (h : ∀ m ∈ languages, keyOf m ≠ keyOf l) : insert l languages = languages ++ [l] := by
  induction languages with
  | nil => rfl
  | cons m rest ih =>
      obtain ⟨hm, hrest⟩ := List.forall_mem_cons.mp h
      rw [insert, if_neg (fun heq => hm (beq_iff_eq.mp heq)), ih hrest, List.cons_append]

/-- An insertion adds a key if it is new, and none otherwise. -/
theorem keys_insert (l : Language) (languages : List Language) :
    (insert l languages).map keyOf =
      if keyOf l ∈ languages.map keyOf then languages.map keyOf
      else languages.map keyOf ++ [keyOf l] := by
  induction languages with
  | nil => rfl
  | cons m rest ih =>
      rw [insert]
      by_cases hsame : keyOf m = keyOf l
      · rw [if_pos (beq_iff_eq.mpr hsame), List.map_cons, List.map_cons, hsame,
          if_pos List.mem_cons_self]
      · rw [if_neg (fun h => hsame (beq_iff_eq.mp h)), List.map_cons, ih, List.map_cons]
        have hmem : keyOf l ∈ keyOf m :: rest.map keyOf ↔ keyOf l ∈ rest.map keyOf := by
          rw [List.mem_cons]
          exact or_iff_right (fun heq => hsame heq.symm)
        by_cases hin : keyOf l ∈ rest.map keyOf
        · rw [if_pos hin, if_pos (hmem.mpr hin)]
        · rw [if_neg hin, if_neg (fun h => hin (hmem.mp h)), List.cons_append]

/-- An insertion under another key leaves a language where it is, and of what comes after it only
the inserted language can be new. -/
theorem exists_insert_append {l m : Language} (hkey : keyOf m ≠ keyOf l)
    (before rest : List Language) :
    ∃ before' rest', insert m (before ++ l :: rest) = before' ++ l :: rest' ∧
      ∀ x ∈ rest', x = m ∨ x ∈ rest := by
  have hlater : ∀ languages, ∀ x ∈ insert m languages, x = m ∨ x ∈ languages := by
    intro languages
    induction languages with
    | nil =>
        intro x hx
        exact .inl (List.mem_singleton.mp hx)
    | cons b languages ih =>
        intro x hx
        rw [insert] at hx
        split at hx
        · rcases List.mem_cons.mp hx with rfl | hx
          · exact .inl rfl
          · exact .inr (List.mem_cons_of_mem b hx)
        · rcases List.mem_cons.mp hx with rfl | hx
          · exact .inr List.mem_cons_self
          · exact (ih x hx).imp_right (List.mem_cons_of_mem b)
  induction before with
  | nil =>
      refine ⟨[], insert m rest, ?_, hlater rest⟩
      rw [List.nil_append, insert, if_neg (fun h => hkey (beq_iff_eq.mp h).symm), List.nil_append]
  | cons b before ih =>
      rw [List.cons_append, insert]
      split
      · refine ⟨m :: before, rest, rfl, ?_⟩
        intro x hx
        exact .inr hx
      · obtain ⟨before', rest', heq, hrest⟩ := ih
        exact ⟨b :: before', rest', by rw [heq, List.cons_append], hrest⟩

/-- A language that is found by its own name is found so after another one is registered, unless
that one hides it. -/
theorem byName_self_of_register {r r' : Registry} {l m : Language} (h : r.register m = .ok r')
    (hkey : keyOf m ≠ keyOf l) (hhides : ¬ m.Hides l) (hfound : r.byName l.name = some l) :
    r'.byName l.name = some l := by
  obtain ⟨-, -, rfl⟩ := register_eq_ok_iff.mp h
  obtain ⟨hself, before, rest, hlanguages, hrest⟩ := findLast_eq_some_iff.mp hfound
  obtain ⟨before', rest', heq, hlater⟩ := exists_insert_append hkey before rest
  refine findLast_eq_some_iff.mpr ⟨hself, before', rest', by rw [hlanguages, heq], ?_⟩
  intro x hx
  rcases hlater x hx with rfl | hx
  · rw [← Bool.not_eq_true]
    intro hanswers
    exact hhides ((answersTo_keyOf_iff hkey).mp hanswers)
  · exact hrest x hx

/-- A language that is found by its own name is found so after another name is unregistered. -/
theorem byName_self_of_unregister {r : Registry} {l : Language} {name : String}
    (hname : Language.normalize name ≠ keyOf l) (hfound : r.byName l.name = some l) :
    (r.unregister name).byName l.name = some l := by
  obtain ⟨hself, before, rest, hlanguages, hrest⟩ := findLast_eq_some_iff.mp hfound
  let keeps (m : Language) : Bool := keyOf m != Language.normalize name
  have hkeep : keeps l = true := bne_iff_ne.mpr hname.symm
  refine findLast_eq_some_iff.mpr ⟨hself, before.filter keeps, rest.filter keeps, ?_, ?_⟩
  · show r.languages.filter keeps = _
    rw [hlanguages, List.filter_append, List.filter_cons_of_pos hkeep]
  · intro m hm
    exact hrest m (List.mem_of_mem_filter hm)

/-! ## Sequences of calls -/

/-- A call that changes the registry. -/
inductive Call where
  | register (l : Language)
  | unregister (name : String)

/-- The registry after a call; a call that is refused changes nothing. -/
def call (r : Registry) : Call → Registry
  | .register l =>
    match r.register l with
    | .ok r' => r'
    | .error _ => r
  | .unregister name => r.unregister name

/-- The registry after a sequence of calls. -/
def after (r : Registry) (calls : List Call) : Registry :=
  calls.foldl call r

/-- A call keeps keys apart. -/
theorem Keyed.call {r : Registry} (hk : r.Keyed) (c : Call) : (r.call c).Keyed := by
  cases c with
  | register l =>
      rw [Registry.call]
      split
      · rename_i r' hok
        obtain ⟨-, -, rfl⟩ := register_eq_ok_iff.mp hok
        rw [Keyed, keys_insert]
        split
        · exact hk
        · rename_i hnew
          refine List.nodup_append.mpr ⟨hk, List.nodup_singleton _, ?_⟩
          intro a ha b hb heq
          rw [List.mem_singleton.mp hb] at heq
          exact hnew (heq ▸ ha)
      · exact hk
  | unregister name =>
      exact hk.sublist (List.filter_sublist.map keyOf)

theorem Keyed.after {r : Registry} (hk : r.Keyed) (calls : List Call) : (r.after calls).Keyed := by
  induction calls generalizing r with
  | nil => exact hk
  | cons c calls ih => exact ih (hk.call c)

/-! ## The languages at the start -/

theorem keyOf_of_mem_builtIn {l : Language} (hl : l ∈ builtIn.languages) : keyOf l = l.name :=
  BuiltIn.normalize_of_mem hl List.mem_cons_self

/-- The built-in languages have distinct keys. -/
theorem builtIn_keyed : builtIn.Keyed := by
  have hnames : builtIn.languages.map keyOf = builtIn.languages.map (·.name) :=
    List.map_congr_left fun l hl => keyOf_of_mem_builtIn hl
  rw [Keyed, hnames]
  decide

/-- After every sequence of calls the keys are apart. -/
theorem keyed_after (calls : List Call) : (builtIn.after calls).Keyed :=
  builtIn_keyed.after calls

/-- Every built-in language is found by its own name at the start. -/
theorem byName_builtIn {l : Language} (hl : l ∈ builtIn.languages) :
    builtIn.byName l.name = some l := by
  have hapart : ∀ l ∈ builtIn.languages, ∀ m ∈ builtIn.languages, ∀ a ∈ m.aliases,
      a ≠ l.name := by
    decide
  obtain ⟨before, rest, h⟩ := List.append_of_mem hl
  rw [byName_self_iff builtIn_keyed h]
  rintro m hm ⟨a, ha, heq⟩
  have hmem : m ∈ builtIn.languages := by
    rw [h]
    exact List.mem_append_right before (List.mem_cons_of_mem l hm)
  rw [BuiltIn.normalize_of_mem hmem (List.mem_cons_of_mem _ ha),
    BuiltIn.normalize_of_mem hl List.mem_cons_self] at heq
  exact hapart l hl m hmem a ha heq

end Registry

end CodeChallenges
