import CodeChallenges.Proofs.Registry.OwnNames
import CodeChallenges.Proofs.Registry.Tables
/-!
# What the registry remembers of its calls

Of all calls about a key only the last accepted one counts: the registry holds the language that was
registered by it, or none if the name was unregistered (`mem_after_iff`).  A language that is
registered again stands where its predecessor stood, and one that is registered after its name was
unregistered stands at the end.  Look-ups ask the languages from the last to the first, so they
find nothing that was replaced or unregistered (`lookups_after_calls`).
-/

namespace CodeChallenges.Registry

/-! ## Look-ups from the end -/

/-- What is found is the last of some languages that satisfies a condition; nothing is found only if
none satisfies it. -/
inductive FindsLast (languages : List Language) (p : Language → Prop) : Option Language → Prop where
  | found {before rest : List Language} {l : Language} (hl : p l)
      (hlanguages : languages = before ++ l :: rest) (hrest : ∀ m ∈ rest, ¬ p m) :
      FindsLast languages p (some l)
  | nothing (hnone : ∀ m ∈ languages, ¬ p m) : FindsLast languages p none

theorem FindsLast.mem {languages : List Language} {p : Language → Prop} {l : Language}
    (h : FindsLast languages p (some l)) : l ∈ languages := by
  cases h with
  | found _ hlanguages _ =>
      rw [hlanguages]
      exact List.mem_append_right _ List.mem_cons_self

/-- A look-up by a test finds the last language that passes the test. -/
theorem findsLast_findLast {r : Registry} {test : Language → Bool} {p : Language → Prop}
    (htest : ∀ l, test l = true ↔ p l) : FindsLast r.languages p (r.findLast test) := by
  have hfails : ∀ l, test l = false ↔ ¬ p l := by
    intro l
    rw [← htest, Bool.not_eq_true]
  cases hfound : r.findLast test with
  | some l =>
      obtain ⟨hl, before, rest, hlanguages, hrest⟩ := findLast_eq_some_iff.mp hfound
      exact .found ((htest l).mp hl) hlanguages fun m hm => (hfails m).mp (hrest m hm)
  | none =>
      refine .nothing fun m hm => ?_
      rw [findLast, List.find?_eq_none] at hfound
      rw [← htest]
      exact hfound m (List.mem_reverse.mpr hm)

/-- A language answers to a key that is the normal form of its name or of one of its aliases. -/
def AnswersTo (key : String) (l : Language) : Prop :=
  Language.normalize key ∈ aliasKeys l

theorem answersTo_normalize_iff {key : String} {l : Language} :
    answersTo (Language.normalize key) l = true ↔ AnswersTo key l := by
  rw [answersTo_iff, AnswersTo, aliasKeys, List.map_cons, List.mem_cons, List.mem_map]
  exact or_congr_left eq_comm

/-- The stored extensions of a language have the normal form of a key among them. -/
def HasExtension (key : String) (l : Language) : Prop :=
  Language.normalize key ∈ l.extensions

/-- What the look-ups of a registry find. -/
structure LooksUpLast (r : Registry) : Prop where
  /-- A name leads to the last language that answers to it. -/
  byName : ∀ key, FindsLast r.languages (AnswersTo key) (r.byName key)
  /-- A path without a suffix leads nowhere. -/
  forPath_eq_none : ∀ path, Path.suffix path = "" → r.forPath path = none
  /-- Any other path leads to the last language that has its suffix. -/
  forPath : ∀ path, Path.suffix path ≠ "" →
    FindsLast r.languages (HasExtension (Path.suffix path)) (r.forPath path)
  /-- A blank key leads nowhere. -/
  resolve_eq_none : ∀ key, Language.normalize key = "" → r.resolve key = none
  /-- Any other key leads to the last language that has it as an extension, or else to where it leads
  as a name. -/
  resolve : ∀ key, Language.normalize key ≠ "" →
    ∃ found, FindsLast r.languages (HasExtension key) found ∧
      r.resolve key = found.or (r.byName key)

/-- Every registry looks up from the end. -/
theorem looksUpLast (r : Registry) : r.LooksUpLast where
  byName _ := findsLast_findLast fun _ => answersTo_normalize_iff
  forPath_eq_none path h := by
    rw [Registry.forPath, h]
    rfl
  forPath path h := by
    rw [Registry.forPath, if_neg (fun heq => h (beq_iff_eq.mp heq))]
    exact findsLast_findLast fun l => List.contains_iff_mem
  resolve_eq_none key h := by
    rw [Registry.resolve, h]
    rfl
  resolve key h := by
    refine ⟨r.byExtension (Language.normalize key),
      findsLast_findLast fun l => List.contains_iff_mem, ?_⟩
    rw [Registry.resolve, if_neg (fun heq => h (beq_iff_eq.mp heq)), Option.orElse_eq_or]
    rfl

/-- A look-up by name, by path or by key finds a language. -/
def Finds (r : Registry) (key : String) (l : Language) : Prop :=
  r.byName key = some l ∨ r.forPath key = some l ∨ r.resolve key = some l

/-- Whatever a look-up finds is registered. -/
theorem LooksUpLast.mem {r : Registry} (h : r.LooksUpLast) {key : String} {l : Language}
    (hl : r.Finds key l) : l ∈ r.languages := by
  have hname : r.byName key = some l → l ∈ r.languages := by
    intro hfound
    have hlast := h.byName key
    rw [hfound] at hlast
    exact hlast.mem
  rcases hl with hfound | hfound | hfound
  · exact hname hfound
  · by_cases hsuffix : Path.suffix key = ""
    · rw [h.forPath_eq_none key hsuffix] at hfound
      exact absurd hfound.symm (Option.some_ne_none l)
    · have hlast := h.forPath key hsuffix
      rw [hfound] at hlast
      exact hlast.mem
  · by_cases hblank : Language.normalize key = ""
    · rw [h.resolve_eq_none key hblank] at hfound
      exact absurd hfound.symm (Option.some_ne_none l)
    · obtain ⟨found, hlast, heq⟩ := h.resolve key hblank
      rw [heq] at hfound
      cases found with
      | some m =>
          rw [Option.some_or] at hfound
          rw [← Option.some.inj hfound]
          exact hlast.mem
      | none =>
          rw [Option.none_or] at hfound
          exact hname hfound

/-! ## Places -/

/-- A registered language stands where the language of its key stood. -/
theorem insert_append_cons {l m : Language} {before rest : List Language}
    (hkey : keyOf m = keyOf l) (hbefore : ∀ x ∈ before, keyOf x ≠ keyOf l) :
    insert l (before ++ m :: rest) = before ++ l :: rest := by
  induction before with
  | nil => rw [List.nil_append, insert, if_pos (beq_iff_eq.mpr hkey), List.nil_append]
  | cons x before ih =>
      obtain ⟨hx, hbefore⟩ := List.forall_mem_cons.mp hbefore
      rw [List.cons_append, insert, if_neg (fun h => hx (beq_iff_eq.mp h)), ih hbefore,
        List.cons_append]

theorem register_of_refusal_eq_none {l : Language} (h : refusal? l = none) (r : Registry) :
    r.register l = .ok ⟨insert l r.languages⟩ := by
  rw [register_eq_refusal, h]

/-- A call to register a language puts it into its place, or at the end. -/
theorem languages_call_register {r : Registry} {l : Language} (h : refusal? l = none) :
    (r.call (.register l)).languages = insert l r.languages := by
  rw [call, register_of_refusal_eq_none h]

/-- A call to unregister a name leaves the languages of other keys. -/
theorem languages_call_unregister (r : Registry) (name : String) :
    (r.call (.unregister name)).languages =
      r.languages.filter fun l => keyOf l != Language.normalize name :=
  rfl

theorem Keyed.languages_register {r : Registry} (hk : r.Keyed) {l m : Language}
    {before rest : List Language} (hr : r.languages = before ++ m :: rest)
    (hkey : keyOf m = keyOf l) (hl : refusal? l = none) :
    (r.call (.register l)).languages = before ++ l :: rest := by
  rw [languages_call_register hl, hr]
  refine insert_append_cons hkey fun x hx => ?_
  rw [← hkey]
  exact hk.ne_of_mem hr (.inl hx)

theorem Keyed.languages_unregister {r : Registry} (hk : r.Keyed) {name : String} {m : Language}
    {before rest : List Language} (hr : r.languages = before ++ m :: rest)
    (hkey : keyOf m = Language.normalize name) :
    (r.call (.unregister name)).languages = before ++ rest := by
  have hother : ∀ {x}, x ∈ before ∨ x ∈ rest → (keyOf x != Language.normalize name) = true := by
    intro x hx
    rw [bne_iff_ne, ← hkey]
    exact hk.ne_of_mem hr hx
  have hself : ¬ (keyOf m != Language.normalize name) = true := by
    rw [bne_iff_ne, not_not]
    exact hkey
  rw [languages_call_unregister, hr, List.filter_append,
    List.filter_cons_of_neg (p := fun x => keyOf x != Language.normalize name) hself,
    List.filter_eq_self.mpr fun x hx => hother (.inl hx),
    List.filter_eq_self.mpr fun x hx => hother (.inr hx)]

/-! ## The last word about a key -/

/-- What a call says of a key: that a language is registered under it, or that none is.  A call that
is refused, or that is about another key, says nothing. -/
def Call.about? (key : String) : Call → Option (Option Language)
  | .register l => if refusal? l = none ∧ keyOf l = key then some (some l) else none
  | .unregister name => if Language.normalize name = key then some none else none

/-- The language that stands under a key after a sequence of calls: the one that the last call about
the key speaks of, or else the one that stood there at the start. -/
def standing (start : Registry) (calls : List Call) (key : String) : Option Language :=
  (calls.reverse.findSome? (Call.about? key)).getD (start.languages.find? (keyOf · == key))

/-- An insertion brings its language and keeps those of other keys. -/
theorem Keyed.mem_insert_iff {r : Registry} (hk : r.Keyed) {l m : Language} :
    l ∈ insert m r.languages ↔ l = m ∨ l ∈ r.languages ∧ keyOf l ≠ keyOf m := by
  by_cases hkey : ∃ x ∈ r.languages, keyOf x = keyOf m
  · obtain ⟨x, hx, hkey⟩ := hkey
    obtain ⟨before, rest, hr⟩ := List.append_of_mem hx
    have hapart : ∀ y, y ∈ before ∨ y ∈ rest → keyOf y ≠ keyOf m := by
      intro y hy
      rw [← hkey]
      exact hk.ne_of_mem hr hy
    rw [hr, insert_append_cons hkey fun y hy => hapart y (.inl hy)]
    simp only [List.mem_append, List.mem_cons]
    constructor
    · rintro (hl | rfl | hl)
      · exact .inr ⟨.inl hl, hapart l (.inl hl)⟩
      · exact .inl rfl
      · exact .inr ⟨.inr (.inr hl), hapart l (.inr hl)⟩
    · rintro (rfl | ⟨hl | rfl | hl, hne⟩)
      · exact .inr (.inl rfl)
      · exact .inl hl
      · exact absurd hkey hne
      · exact .inr (.inr hl)
  · have hnew : ∀ x ∈ r.languages, keyOf x ≠ keyOf m := fun x hx heq => hkey ⟨x, hx, heq⟩
    rw [insert_of_new hnew, List.mem_append, List.mem_singleton, or_comm]
    exact or_congr_right ⟨fun hl => ⟨hl, hnew l hl⟩, fun hl => hl.1⟩

/-- After a call a language is registered if the call says so, or if the call says nothing of its key
and it was registered before. -/
theorem Keyed.mem_call_iff {r : Registry} (hk : r.Keyed) (c : Call) {l : Language} :
    l ∈ (r.call c).languages ↔
      c.about? (keyOf l) = some (some l) ∨ c.about? (keyOf l) = none ∧ l ∈ r.languages := by
  cases c with
  | register m =>
      rw [Call.about?]
      by_cases hm : refusal? m = none
      · rw [languages_call_register hm, hk.mem_insert_iff]
        by_cases hkey : keyOf m = keyOf l
        · rw [if_pos ⟨hm, hkey⟩]
          simp only [Option.some.injEq, reduceCtorEq, false_and, or_false, hkey, ne_eq,
            not_true_eq_false, and_false, eq_comm]
        · rw [if_neg fun h => hkey h.2]
          simp only [reduceCtorEq, true_and, false_or]
          constructor
          · rintro (rfl | ⟨hl, -⟩)
            · exact absurd rfl hkey
            · exact hl
          · intro hl
            exact .inr ⟨hl, fun heq => hkey heq.symm⟩
      · obtain ⟨fault, hfault⟩ := Option.ne_none_iff_exists'.mp hm
        rw [if_neg fun h => hm h.1, Registry.call, register_eq_refusal, hfault]
        simp only [reduceCtorEq, true_and, false_or]
  | unregister name =>
      rw [languages_call_unregister, Call.about?, List.mem_filter, bne_iff_ne]
      by_cases hkey : Language.normalize name = keyOf l
      · rw [if_pos hkey]
        simp only [hkey, ne_eq, not_true_eq_false, and_false, Option.some.injEq, reduceCtorEq,
          false_and, or_self]
      · rw [if_neg hkey]
        simp only [reduceCtorEq, true_and, false_or]
        exact and_iff_left fun heq => hkey heq.symm

/-- A language stands under its own key. -/
theorem Keyed.find_keyOf_iff {r : Registry} (hk : r.Keyed) {l : Language} :
    r.languages.find? (keyOf · == keyOf l) = some l ↔ l ∈ r.languages := by
  constructor
  · exact List.mem_of_find?_eq_some
  · intro hl
    obtain ⟨before, rest, hr⟩ := List.append_of_mem hl
    rw [List.find?_eq_some_iff_append]
    refine ⟨beq_self_eq_true _, before, rest, hr, fun x hx => ?_⟩
    rw [Bool.not_eq_true', beq_eq_false_iff_ne]
    exact hk.ne_of_mem hr (.inl hx)

/-- **The registry holds what the last word about each key says.** -/
theorem Keyed.mem_after_iff {start : Registry} (hk : start.Keyed) (calls : List Call)
    {l : Language} :
    l ∈ (start.after calls).languages ↔ standing start calls (keyOf l) = some l := by
  induction calls using List.reverseRecOn with
  | nil => exact hk.find_keyOf_iff.symm
  | append_singleton calls c ih =>
      rw [Registry.after, List.foldl_append, List.foldl_cons, List.foldl_nil, ← Registry.after,
        (hk.after calls).mem_call_iff, ih, standing, standing, List.reverse_append,
        List.reverse_singleton, List.singleton_append, List.findSome?_cons]
      cases c.about? (keyOf l) with
      | none => simp only [reduceCtorEq, true_and, false_or]
      | some word => simp only [Option.some.injEq, reduceCtorEq, false_and, or_false, Option.getD_some]

/-! ## All calls together -/

/-- What the next calls do to the places of the languages. -/
structure KeepsPlaces (r : Registry) : Prop where
  /-- A language that replaces another stands where the other stood. -/
  replace : ∀ before m rest l, r.languages = before ++ m :: rest → keyOf m = keyOf l →
    refusal? l = none → (r.call (.register l)).languages = before ++ l :: rest
  /-- A language with a new name stands at the end. -/
  add : ∀ l, (∀ m ∈ r.languages, keyOf m ≠ keyOf l) → refusal? l = none →
    (r.call (.register l)).languages = r.languages ++ [l]
  /-- Of unregistered names nothing is left. -/
  remove : ∀ before m rest name, r.languages = before ++ m :: rest →
    keyOf m = Language.normalize name → (r.call (.unregister name)).languages = before ++ rest
  /-- A language that is registered after its name was unregistered stands at the end. -/
  move : ∀ before m rest name l, r.languages = before ++ m :: rest →
    keyOf m = Language.normalize name → keyOf m = keyOf l → refusal? l = none →
    (r.after [.unregister name, .register l]).languages = before ++ rest ++ [l]

theorem Keyed.keepsPlaces {r : Registry} (hk : r.Keyed) : r.KeepsPlaces where
  replace _ _ _ _ hr hkey hl := hk.languages_register hr hkey hl
  add l hnew hl := by rw [languages_call_register hl, insert_of_new hnew]
  remove _ _ _ _ hr hkey := hk.languages_unregister hr hkey
  move before m rest name l hr hkey hsame hl := by
    rw [Registry.after, List.foldl_cons, List.foldl_cons, List.foldl_nil]
    have hleft := hk.languages_unregister hr hkey
    rw [languages_call_register hl, hleft]
    refine insert_of_new fun x hx => ?_
    rw [← hsame]
    exact hk.ne_of_mem hr (List.mem_append.mp hx)

/-- The tables answer as a registry does. -/
structure Tables.Mirror (t : Tables) (r : Registry) : Prop where
  languages : t.entries.languages = r.languages
  byName : ∀ name, t.byName name = r.byName name
  forPath : ∀ path, t.forPath path = r.forPath path
  resolve : ∀ key, t.resolve key = r.resolve key

theorem mirror_tables (r : Registry) : r.tables.Mirror r where
  languages := languages_entriesOf r.languages
  byName := byName_tables r
  forPath := forPath_tables r
  resolve := resolve_tables r

/-- A language is refused if its name is blank or if it has no extensions, and only then. -/
theorem register_refused_iff {r : Registry} {l : Language} :
    (∃ fault, r.register l = .error fault) ↔ keyOf l = "" ∨ l.extensions = [] := by
  rw [register]
  by_cases hkey : keyOf l = ""
  · rw [if_pos (beq_iff_eq.mpr hkey)]
    exact iff_of_true ⟨_, rfl⟩ (.inl hkey)
  · rw [if_neg fun h => hkey (beq_iff_eq.mp h)]
    by_cases hextensions : l.extensions = []
    · rw [if_pos (List.isEmpty_iff.mpr hextensions)]
      exact iff_of_true ⟨_, rfl⟩ (.inr hextensions)
    · rw [if_neg fun h => hextensions (List.isEmpty_iff.mp h)]
      refine iff_of_false ?_ (not_or.mpr ⟨hkey, hextensions⟩)
      rintro ⟨fault, hfault⟩
      exact absurd hfault (by simp)

theorem after_refused {r : Registry} {l : Language} {fault : Fault} (calls : List Call)
    (h : (r.after calls).register l = .error fault) :
    r.after (calls ++ [.register l]) = r.after calls := by
  rw [after, List.foldl_append, List.foldl_cons, List.foldl_nil, ← after, call, h]

/-- **The registry after any calls**: every look-up finds the last of the languages that it asks for;
there is one language for each name, the one that the last accepted call about the name registered,
and no look-up finds any other; languages keep their places; calls that are refused change nothing;
and the tables with their indexes answer the same. -/
theorem lookups_after_calls (calls : List Call) :
    (builtIn.after calls).LooksUpLast ∧
    (builtIn.after calls).Keyed ∧
    (∀ l, l ∈ (builtIn.after calls).languages ↔ standing builtIn calls (keyOf l) = some l) ∧
    (∀ key l, (builtIn.after calls).Finds key l → standing builtIn calls (keyOf l) = some l) ∧
    (builtIn.after calls).KeepsPlaces ∧
    (∀ l, ((∃ fault, (builtIn.after calls).register l = .error fault) ↔
        keyOf l = "" ∨ l.extensions = []) ∧
      ∀ fault, (builtIn.after calls).register l = .error fault →
        builtIn.after (calls ++ [.register l]) = builtIn.after calls ∧
        Tables.builtIn.after (calls ++ [.register l]) = Tables.builtIn.after calls) ∧
    (Tables.builtIn.after calls).Mirror (builtIn.after calls) := by
  have hlast := (builtIn.after calls).looksUpLast
  have hk := keyed_after calls
  have hword : ∀ l, l ∈ (builtIn.after calls).languages ↔
      standing builtIn calls (keyOf l) = some l :=
    fun l => builtIn_keyed.mem_after_iff calls
  refine ⟨hlast, hk, hword, ?_, hk.keepsPlaces, ?_, ?_⟩
  · intro key l hfinds
    exact (hword l).mp (hlast.mem hfinds)
  · intro l
    refine ⟨register_refused_iff, fun fault hfault => ?_⟩
    have hsame := after_refused calls hfault
    refine ⟨hsame, ?_⟩
    rw [tables_agree, tables_agree, hsame]
  · rw [tables_agree]
    exact mirror_tables _

theorem refusal_python : refusal? BuiltIn.python = none := by
  have hkey : keyOf BuiltIn.python = "python" := Language.normalize_of_plain (by decide)
  rw [refusal?, hkey]
  decide

/-- Between the built-in languages and one more, Python is unregistered and no longer there; when it
is registered again it stands at the end.  Without extensions it is refused. -/
theorem lookups_after_calls_sample :
    (builtIn.after [.register toyLanguage]).languages =
      builtIn.languages.take 4 ++ BuiltIn.python :: (builtIn.languages.drop 5 ++ [toyLanguage]) ∧
    BuiltIn.python ∉ (builtIn.after [.register toyLanguage, .unregister "python"]).languages ∧
    ((builtIn.after [.register toyLanguage]).after
        [.unregister "python", .register BuiltIn.python]).languages =
      builtIn.languages.take 4 ++ (builtIn.languages.drop 5 ++ [toyLanguage]) ++
        [BuiltIn.python] ∧
    ∃ fault, (builtIn.after [.register toyLanguage]).register
      { BuiltIn.python with extensions := [] } = .error fault := by
  have hplace : (builtIn.after [.register toyLanguage]).languages =
      builtIn.languages.take 4 ++ BuiltIn.python :: (builtIn.languages.drop 5 ++ [toyLanguage]) :=
    languages_after_toy
  obtain ⟨-, -, -, -, hplaces, hrefused, -⟩ := lookups_after_calls [.register toyLanguage]
  have hword := (lookups_after_calls [.register toyLanguage, .unregister "python"]).2.2.1
  refine ⟨hplace, ?_, ?_, (hrefused _).1.mpr (.inr rfl)⟩
  · rw [hword]
    have hlast : Call.about? (keyOf BuiltIn.python) (.unregister "python") = some none := by
      rw [Call.about?]
      exact if_pos rfl
    rw [standing, List.reverse_cons, List.reverse_singleton, List.singleton_append,
      List.findSome?_cons, hlast]
    exact (Option.some_ne_none BuiltIn.python).symm
  · exact hplaces.move _ _ _ _ _ hplace rfl rfl refusal_python

end CodeChallenges.Registry
