import CodeChallenges.Proofs.Repository.Scan
/-!
# When pruning is harmless

The walk does not enter a directory whose path, with a slash at its end, the exclude globs match.
Files below it need not be excluded themselves.  The walk and git agree exactly if the globs match
no directory above a file that git chooses.  They do not always agree: a glob that ends in a lone
star matches the directories at its depth but not what lies below them.
-/

namespace CodeChallenges.Repository.Scanner

/-- **The walk and git agree** in a plain repository exactly if the exclude globs match no directory
above a file that git chooses. -/
theorem walk_agrees_with_git_iff {sc : Scanner} {r : Registry}
    (hp : sc.world.snapshot.Plain sc.root) (hmark : sc.OneMark) {listed : List String}
    (hlists : sc.ListsFiles listed) :
    ∃ byGit byWalk, (sc.asking true).run r none = .ok byGit ∧
      (sc.asking false).run r none = .ok byWalk ∧
      (byWalk.found = byGit.found ↔ ∀ f ∈ byGit.found, sc.isBelowMatch f.1 = false) := by
  obtain ⟨byGit, byWalk, hgit, hwalk, -, hfound⟩ := found_walk_eq_filter (r := r) hp hmark hlists
  refine ⟨byGit, byWalk, hgit, hwalk, ?_⟩
  rw [hfound, List.filter_eq_self]
  simp only [Bool.not_eq_true']

/-- The walk and git disagree on the small work tree for the exclude glob `a/*`: it matches the
directory `a/b/`, so that the walk does not enter it, but does not match the file below it, which
git chooses. -/
theorem lone_star_prunes_chosen_file :
    excludeGlobs (sampleOptions ["a/*"]) = .ok (sampleScanner ["a/*"]).excludes ∧
      sampleSnapshot.Plain ["r"] ∧ (sampleScanner ["a/*"]).OneMark ∧
      (sampleScanner ["a/*"]).ListsFiles ["a/b/f.sample"] ∧
      (sampleScanner ["a/*"]).matchesExcludes "a/b/" = true ∧
      (sampleScanner ["a/*"]).isExcluded "a/b/f.sample" = false ∧
      ∃ byGit byWalk, ((sampleScanner ["a/*"]).asking true).run sampleRegistry none = .ok byGit ∧
        ((sampleScanner ["a/*"]).asking false).run sampleRegistry none = .ok byWalk ∧
        byGit.found.map Prod.fst = ["a/b/f.sample"] ∧ byWalk.found.map Prod.fst = [] := by
  obtain ⟨byGit, byWalk, hgit, hwalk, hfound, hpruned⟩ := found_walk_eq_filter
    (r := sampleRegistry) sample_plain (sample_oneMark ["a/*"]) (sample_listsFiles ["a/*"])
  have hexcludes : excludeGlobs (sampleOptions ["a/*"]) = .ok (sampleScanner ["a/*"]).excludes :=
    eq_ok_of_isSome (by decide +kernel) none
  refine ⟨hexcludes, sample_plain, sample_oneMark _, sample_listsFiles _, by decide +kernel,
    by decide +kernel, byGit, byWalk, hgit, hwalk, ?_, ?_⟩
  · rw [hfound]
    decide +kernel
  · rw [hpruned, hfound]
    decide +kernel

/-- The criterion applies to this work tree. -/
theorem walk_agrees_with_git_sample :
    ∃ byGit byWalk, ((sampleScanner ["a/*"]).asking true).run sampleRegistry none = .ok byGit ∧
      ((sampleScanner ["a/*"]).asking false).run sampleRegistry none = .ok byWalk ∧
      (byWalk.found = byGit.found ↔
        ∀ f ∈ byGit.found, (sampleScanner ["a/*"]).isBelowMatch f.1 = false) :=
  walk_agrees_with_git_iff sample_plain (sample_oneMark _) (sample_listsFiles _)

end CodeChallenges.Repository.Scanner
