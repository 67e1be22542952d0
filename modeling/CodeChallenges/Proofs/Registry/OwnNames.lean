import CodeChallenges.Proofs.Extraction.File
import CodeChallenges.Proofs.Registry
/-!
# What the own name of a language leads to

The challenges of a file carry the name of the language whose patterns found them, and everything
later asks the registry for the language of that name.  The registry gives the same language back
exactly if no language registered after it has an alias that reads like its name
(`byName_after_iff`).  Nothing keeps such a language from being registered, and it takes the name
over (`byName_of_alias`).
-/

namespace CodeChallenges

namespace Registry

open Extraction (Processed madeIn processFile FromTree Toolkit)
open Repository (Snapshot Place GitService)

/-! ## Calls about other languages -/

/-- A call is about another language than a given one, and brings no alias that reads like its
name. -/
def Call.Spares (l : Language) : Call → Prop
  | .register m => keyOf m ≠ keyOf l ∧ ¬ m.Hides l
  | .unregister name => Language.normalize name ≠ keyOf l

theorem byName_self_of_call {r : Registry} {l : Language} {c : Call} (hspares : c.Spares l)
    (hfound : r.byName l.name = some l) : (r.call c).byName l.name = some l := by
  cases c with
  | register m =>
      rw [call]
      split
      · rename_i r' hok
        exact byName_self_of_register hok hspares.1 hspares.2 hfound
      · exact hfound
  | unregister name => exact byName_self_of_unregister hspares hfound

/-- A language that is found by its own name is found so after all calls that spare it. -/
theorem byName_self_of_after {r : Registry} {l : Language} {calls : List Call}
    (hspares : ∀ c ∈ calls, c.Spares l) (hfound : r.byName l.name = some l) :
    (r.after calls).byName l.name = some l := by
  induction calls generalizing r with
  | nil => exact hfound
  | cons c calls ih =>
      obtain ⟨hc, hcalls⟩ := List.forall_mem_cons.mp hspares
      exact ih hcalls (byName_self_of_call hc hfound)

/-! ## Look-up from a challenge -/

/-- The challenges of a file carry the name of its language. -/
theorem language_of_mem_madeIn {t : Toolkit} {r : Registry} {o : Options} {snapshot : Snapshot}
    {root : Place} {git : Option GitService} {path : String} {l : Language} {c : Challenge}
    (hc : c ∈ madeIn (processFile t r o snapshot root git path l)) : c.language = l.name := by
  obtain ⟨count, dropped, messages, hok⟩ := Extraction.eq_ok_of_mem_madeIn hc
  obtain ⟨content, hread⟩ := Extraction.exists_read_of_processFile hok
  obtain ⟨-, patterns, -, candidates, hfrom, hmade⟩ := Extraction.processFile_eq_ok hok hread
  obtain ⟨chunk, hchunk, hofChunk⟩ := exists_of_mem_mapM hmade hc
  rw [(Challenge.ofChunk_eq_ok hofChunk).1.language_eq]
  exact (hfrom chunk (Selection.mem_of_mem_resolve hchunk)).language_eq

/-- **The own name of a registered language** leads back to it, from the language itself, from the
candidates in its files and from their challenges, exactly if no language registered after it has an
alias that reads like this name; and what spares the language does not change where its name
leads. -/
theorem byName_after_iff (calls : List Call) {before rest : List Language} {l : Language}
    (h : (builtIn.after calls).languages = before ++ l :: rest) :
    ((builtIn.after calls).byName l.name = some l ↔ ∀ m ∈ rest, ¬ m.Hides l) ∧
    (∀ more : List Call, (∀ c ∈ more, c.Spares l) → (∀ m ∈ rest, ¬ m.Hides l) →
      (builtIn.after (calls ++ more)).byName l.name = some l) ∧
    (∀ (s : Candidates.Setting) queries o root candidates, s.language = l →
      FromTree s queries o root candidates → ∀ chunk ∈ candidates,
        ((builtIn.after calls).byName chunk.language = some l ↔ ∀ m ∈ rest, ¬ m.Hides l)) ∧
    ∀ t o snapshot root git path,
      ∀ c ∈ madeIn (processFile t (builtIn.after calls) o snapshot root git path l),
        ((builtIn.after calls).byName c.language = some l ↔ ∀ m ∈ rest, ¬ m.Hides l) := by
  have hiff := byName_self_iff (keyed_after calls) h
  refine ⟨hiff, ?_, ?_, ?_⟩
  · intro more hspares hrest
    rw [after, List.foldl_append]
    exact byName_self_of_after hspares (hiff.mpr hrest)
  · rintro s queries o root candidates rfl hfrom chunk hchunk
    rw [(hfrom chunk hchunk).language_eq]
    exact hiff
  · intro t o snapshot root git path c hc
    rw [language_of_mem_madeIn hc]
    exact hiff

/-! ## A language that takes a name over -/

/-- A language with a name of its own, and with the name of another as an alias. -/
def toyLanguage : Language :=
  { name := "toy"
    displayName := "Toy"
    grammar := "toy"
    extensions := ["toy"]
    aliases := ["python"] }

/-- The new language comes after all others. -/
theorem languages_after_toy :
    (builtIn.after [.register toyLanguage]).languages = builtIn.languages ++ [toyLanguage] := by
  have hkey : keyOf toyLanguage = "toy" := Language.normalize_of_plain (by decide)
  have hnew : ∀ l ∈ builtIn.languages, keyOf l ≠ keyOf toyLanguage := by
    intro l hl
    rw [hkey, keyOf_of_mem_builtIn hl]
    exact (by decide : ∀ l ∈ builtIn.languages, l.name ≠ "toy") l hl
  have hok : builtIn.register toyLanguage = .ok ⟨insert toyLanguage builtIn.languages⟩ :=
    register_eq_ok_iff.mpr ⟨by rw [hkey]; decide, by decide, rfl⟩
  show (builtIn.call (.register toyLanguage)).languages = _
  rw [call, hok]
  exact insert_of_new hnew

theorem toy_hides_python : toyLanguage.Hides BuiltIn.python :=
  ⟨"python", List.mem_singleton_self _, rfl⟩

theorem toy_spares_zig : ¬ toyLanguage.Hides BuiltIn.zig := by
  rintro ⟨a, ha, heq⟩
  have hpython : Language.normalize "python" = "python" := Language.normalize_of_plain (by decide)
  have hzig : Language.normalize BuiltIn.zig.name = "zig" := Language.normalize_of_plain (by decide)
  rw [List.mem_singleton.mp ha, hpython, hzig] at heq
  exact absurd heq (by decide)

/-- **An alias takes a name over**: Python is still registered, and its name leads to the new
language. -/
theorem byName_of_alias :
    BuiltIn.python ∈ (builtIn.after [.register toyLanguage]).languages ∧
    (builtIn.after [.register toyLanguage]).byName BuiltIn.python.name = some toyLanguage ∧
    toyLanguage ≠ BuiltIn.python := by
  refine ⟨?_, ?_, ?_⟩
  · rw [languages_after_toy]
    have hpython : BuiltIn.python ∈ builtIn.languages :=
      List.mem_append_right (builtIn.languages.take 4) List.mem_cons_self
    exact List.mem_append_left _ hpython
  · refine findLast_eq_some_iff.mpr ⟨?_, builtIn.languages, [], languages_after_toy,
      List.forall_mem_nil _⟩
    exact answersTo_iff.mpr (.inr toy_hides_python)
  · intro heq
    exact absurd (congrArg Language.name heq) (by decide)

/-- After the new language is registered, the last language before it is still found by its own
name, and Python is not. -/
theorem byName_after_iff_sample :
    (builtIn.after [.register toyLanguage]).languages =
      builtIn.languages.take 4 ++ BuiltIn.python :: (builtIn.languages.drop 5 ++ [toyLanguage]) ∧
    (builtIn.after [.register toyLanguage]).languages =
      builtIn.languages.take 20 ++ BuiltIn.zig :: [toyLanguage] ∧
    (builtIn.after [.register toyLanguage]).byName BuiltIn.python.name ≠ some BuiltIn.python ∧
    (builtIn.after [.register toyLanguage]).byName BuiltIn.zig.name = some BuiltIn.zig := by
  have hpython : (builtIn.after [.register toyLanguage]).languages =
      builtIn.languages.take 4 ++ BuiltIn.python :: (builtIn.languages.drop 5 ++ [toyLanguage]) :=
    languages_after_toy
  have hzig : (builtIn.after [.register toyLanguage]).languages =
      builtIn.languages.take 20 ++ BuiltIn.zig :: [toyLanguage] :=
    languages_after_toy
  refine ⟨hpython, hzig, ?_, ?_⟩
  · rw [ne_eq, (byName_after_iff _ hpython).1]
    intro hnone
    exact hnone toyLanguage (List.mem_append_right _ List.mem_cons_self) toy_hides_python
  · exact (byName_after_iff _ hzig).1.mpr (List.forall_mem_singleton.mpr toy_spares_zig)

end Registry

end CodeChallenges
