import CodeChallenges.Proofs.Outcome
import CodeChallenges.Proofs.Registry.History
/-!
# What the extensions of a new language lead to

Keys are brought into their normal form when they are looked up.  Names and aliases are also brought
into it when they are indexed, but extensions are indexed as the language declares them.  So a new
language, which comes after all others, is found by an extension exactly if it declares the normal
form itself, or if no language declares the normal form and the new one is called so
(`resolve_declared_iff`).  A language that was read from a table declares normal forms only, and is
found by all extensions of its entry.  A language that was made in another way may declare an
extension that leads nowhere, in whatever way it is written (`dotted_extension_not_found`).
-/

namespace CodeChallenges

namespace Language

/-- A language that is read from a table declares the normal forms of the extensions in its entry. -/
theorem extensions_of_ofEntry {entry : Entry} {l : Language} (h : ofEntry entry = .ok l) :
    l.extensions = entry.extensions.map normalize := by
  obtain ⟨captures, -, h⟩ := bind_eq_ok_iff.mp h
  obtain ⟨priority, -, h⟩ := bind_eq_ok_iff.mp h
  split at h
  · rw [← pure_eq_ok_iff.mp h]
  · cases h

end Language

namespace Registry

/-! ## The last language -/

/-- A search from the end comes to the last language first. -/
theorem findLast_append_singleton (languages : List Language) (l : Language)
    (p : Language → Bool) :
    findLast ⟨languages ++ [l]⟩ p = if p l then some l else findLast ⟨languages⟩ p := by
  rw [findLast, List.reverse_append, List.reverse_singleton, List.singleton_append,
    List.find?_cons]
  cases p l <;> rfl

/-- The last language is found by every extension that it declares in its normal form. -/
theorem resolve_of_hasExtension {languages : List Language} {l : Language} {key : String}
    (hkey : Language.normalize key ≠ "") (h : HasExtension key l) :
    resolve ⟨languages ++ [l]⟩ key = some l := by
  rw [resolve, if_neg (mt beq_iff_eq.mp hkey), byExtension, findLast_append_singleton,
    if_pos (List.contains_iff_mem.mpr h)]
  rfl

/-- By any other key the last language is found exactly if it answers to the key as a name and no
other language has it as an extension. -/
theorem resolve_eq_last_iff {languages : List Language} {l : Language} (hother : l ∉ languages)
    {key : String} (hkey : Language.normalize key ≠ "") (h : ¬ HasExtension key l) :
    resolve ⟨languages ++ [l]⟩ key = some l ↔
      (∀ m ∈ languages, ¬ HasExtension key m) ∧ AnswersTo key l := by
  have hfails : ¬ l.extensions.contains (Language.normalize key) = true :=
    mt List.contains_iff_mem.mp h
  rw [resolve, if_neg (mt beq_iff_eq.mp hkey), byExtension, findLast_append_singleton,
    if_neg hfails, byKey, findLast_append_singleton]
  have hfound : FindsLast languages (HasExtension key)
      (findLast ⟨languages⟩ (·.extensions.contains (Language.normalize key))) :=
    findsLast_findLast fun _ => List.contains_iff_mem
  generalize findLast ⟨languages⟩ (·.extensions.contains (Language.normalize key)) = found at hfound
  cases hfound with
  | found hm hlanguages _ =>
      have hmem := hlanguages ▸ List.mem_append_right _ List.mem_cons_self
      refine iff_of_false ?_ fun hboth => hboth.1 _ hmem hm
      intro heq
      exact hother (Option.some.inj heq ▸ hmem)
  | nothing hnone =>
      rw [Option.orElse_none, and_iff_right hnone, ← answersTo_normalize_iff]
      split
      · rename_i hanswers
        exact iff_of_true rfl hanswers
      · rename_i hanswers
        refine iff_of_false ?_ hanswers
        intro heq
        exact hother ((looksUpLast ⟨languages⟩).mem (.inl heq))

theorem FindsLast.eq_none_iff {languages : List Language} {p : Language → Prop}
    {found : Option Language} (h : FindsLast languages p found) :
    found = none ↔ ∀ m ∈ languages, ¬ p m := by
  cases h with
  | found hl hlanguages _ =>
      refine iff_of_false (Option.some_ne_none _) fun hnone => hnone _ ?_ hl
      exact hlanguages ▸ List.mem_append_right _ List.mem_cons_self
  | nothing hnone => exact iff_of_true rfl hnone

/-- A key leads nowhere if no language has it as an extension and none answers to it as a name. -/
theorem resolve_eq_none_iff {r : Registry} {key : String} (hkey : Language.normalize key ≠ "") :
    r.resolve key = none ↔ ∀ m ∈ r.languages, ¬ HasExtension key m ∧ ¬ AnswersTo key m := by
  obtain ⟨found, hfound, heq⟩ := r.looksUpLast.resolve key hkey
  rw [heq, Option.or_eq_none_iff, hfound.eq_none_iff, (r.looksUpLast.byName key).eq_none_iff]
  exact forall₂_and.symm

/-! ## Declared extensions -/

/-- Every extension that a language declares leads to it, in whatever way it is written. -/
def FoundByExtensions (r : Registry) (l : Language) : Prop :=
  ∀ declared ∈ l.extensions, Language.normalize declared ≠ "" →
    ∀ key, Language.normalize key = Language.normalize declared → r.resolve key = some l

/-- **A key leads to a new language** exactly if the language declares the normal form of the key, or
if no registered language declares it and it is the name or an alias of the new one.  So the extensions
that the language declares lead to it if this can be said of each, and the extensions in an entry lead
to the language that is read from it. -/
theorem resolve_declared_iff {r r' : Registry} {l : Language} (h : r.register l = .ok r')
    (hnew : ∀ m ∈ r.languages, keyOf m ≠ keyOf l) :
    (∀ key, Language.normalize key ≠ "" →
      (r'.resolve key = some l ↔
        HasExtension key l ∨ (∀ m ∈ r.languages, ¬ HasExtension key m) ∧ AnswersTo key l)) ∧
    (r'.FoundByExtensions l ↔
      ∀ declared ∈ l.extensions, Language.normalize declared ≠ "" →
        HasExtension declared l ∨
          (∀ m ∈ r.languages, ¬ HasExtension declared m) ∧ AnswersTo declared l) ∧
    ∀ entry, Language.ofEntry entry = .ok l →
      ∀ declared ∈ entry.extensions, Language.normalize declared ≠ "" →
        ∀ key, Language.normalize key = Language.normalize declared →
          r'.resolve key = some l := by
  obtain ⟨-, -, rfl⟩ := register_eq_ok_iff.mp h
  rw [insert_of_new hnew]
  have hiff : ∀ key, Language.normalize key ≠ "" →
      (resolve ⟨r.languages ++ [l]⟩ key = some l ↔
        HasExtension key l ∨ (∀ m ∈ r.languages, ¬ HasExtension key m) ∧ AnswersTo key l) := by
    intro key hkey
    by_cases hown : HasExtension key l
    · exact iff_of_true (resolve_of_hasExtension hkey hown) (.inl hown)
    · have hother : l ∉ r.languages := fun hl => hnew l hl rfl
      rw [or_iff_right hown]
      exact resolve_eq_last_iff hother hkey hown
  refine ⟨hiff, ⟨?_, ?_⟩, ?_⟩
  · intro hfound declared hdeclared hne
    exact (hiff declared hne).mp (hfound declared hdeclared hne declared rfl)
  · intro hall declared hdeclared hne key hkey
    -- What a registry finds for a key depends on the normal form only.
    rw [resolve, hkey, ← resolve]
    exact (hiff declared hne).mpr (hall declared hdeclared hne)
  · intro entry hentry declared hdeclared hne key hkey
    rw [← hkey] at hne
    refine resolve_of_hasExtension hne ?_
    rw [HasExtension, hkey, Language.extensions_of_ofEntry hentry]
    exact List.mem_map_of_mem hdeclared

/-! ## A language that writes the dot -/

/-- A language that declares one extension with the dot before it, and one without. -/
def dottedLanguage : Language where
  name := "toy"
  displayName := "Toy"
  grammar := "toy"
  extensions := [".foo", "bar"]

/-- The registry at the start takes the language, under a new key. -/
theorem register_dotted :
    builtIn.register dottedLanguage = .ok ⟨insert dottedLanguage builtIn.languages⟩ ∧
    ∀ m ∈ builtIn.languages, keyOf m ≠ keyOf dottedLanguage := by
  have hkey : keyOf dottedLanguage = "toy" := Language.normalize_of_plain (by decide)
  constructor
  · exact register_eq_ok_iff.mpr ⟨by rw [hkey]; decide, by decide, rfl⟩
  · intro m hm
    rw [hkey, keyOf_of_mem_builtIn hm]
    exact (by decide : ∀ l ∈ builtIn.languages, l.name ≠ "toy") m hm

/-- Only the extension without a dot leads to the language, in whatever way the two are written. -/
theorem resolve_declared_iff_sample :
    builtIn.register dottedLanguage = .ok ⟨insert dottedLanguage builtIn.languages⟩ ∧
    (∀ m ∈ builtIn.languages, keyOf m ≠ keyOf dottedLanguage) ∧
    (∀ key ∈ ["bar", ".Bar", " ..BAR "],
      resolve ⟨insert dottedLanguage builtIn.languages⟩ key = some dottedLanguage) ∧
    (∀ key ∈ ["foo", ".foo", " ..FOO "],
      resolve ⟨insert dottedLanguage builtIn.languages⟩ key ≠ some dottedLanguage) := by
  obtain ⟨hregister, hnew⟩ := register_dotted
  obtain ⟨hiff, -, -⟩ := resolve_declared_iff hregister hnew
  refine ⟨hregister, hnew, ?_, ?_⟩
  · have hbar : ∀ key ∈ ["bar", ".Bar", " ..BAR "], Language.normalize key = "bar" := by decide
    intro key hkey
    rw [hiff key (by rw [hbar key hkey]; decide), HasExtension, hbar key hkey]
    exact .inl (by decide)
  · have hfoo : ∀ key ∈ ["foo", ".foo", " ..FOO "], Language.normalize key = "foo" := by decide
    intro key hkey
    rw [ne_eq, hiff key (by rw [hfoo key hkey]; decide), HasExtension, AnswersTo, hfoo key hkey]
    rintro (hown | ⟨-, hcalled⟩)
    · exact absurd hown (by decide)
    · exact absurd hcalled (by decide)

/-- **An extension that leads nowhere**: the language is accepted under a new name and declares the
extension, but it is not found by it, as it is declared or without its dot. -/
theorem dotted_extension_not_found :
    builtIn.register dottedLanguage = .ok ⟨insert dottedLanguage builtIn.languages⟩ ∧
    (∀ m ∈ builtIn.languages, keyOf m ≠ keyOf dottedLanguage) ∧
    ".foo" ∈ dottedLanguage.extensions ∧ Language.normalize ".foo" ≠ "" ∧
    resolve ⟨insert dottedLanguage builtIn.languages⟩ ".foo" = none ∧
    resolve ⟨insert dottedLanguage builtIn.languages⟩ "foo" = none ∧
    ¬ FoundByExtensions ⟨insert dottedLanguage builtIn.languages⟩ dottedLanguage := by
  obtain ⟨hregister, hnew⟩ := register_dotted
  have hnowhere : ∀ key, Language.normalize key = "foo" →
      resolve ⟨insert dottedLanguage builtIn.languages⟩ key = none := by
    intro key hkey
    rw [insert_of_new hnew, resolve_eq_none_iff (by rw [hkey]; decide)]
    refine List.forall_mem_append.mpr ⟨?_, List.forall_mem_singleton.mpr ?_⟩
    · have hplain : ∀ m ∈ builtIn.languages, "foo" ∉ m.extensions ∧ "foo" ∉ m.name :: m.aliases := by
        decide
      intro m hm
      have hkeys : aliasKeys m = m.name :: m.aliases :=
        (List.map_congr_left fun _ hname => BuiltIn.normalize_of_mem hm hname).trans
          (List.map_id _)
      rw [HasExtension, AnswersTo, hkey, hkeys]
      exact hplain m hm
    · rw [HasExtension, AnswersTo, hkey]
      decide
  have hdotted := hnowhere ".foo" (by decide)
  refine ⟨hregister, hnew, by decide, by decide, hdotted, hnowhere "foo" (by decide), ?_⟩
  intro hfound
  rw [hfound ".foo" (by decide) (by decide) ".foo" rfl] at hdotted
  cases hdotted

end Registry

end CodeChallenges
