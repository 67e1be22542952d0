import CodeChallenges.Language.BuiltIn
/-!
# Normal forms of keys

A key of small letters, digits and signs is its own normal form (`normalize_of_plain`), so for such
keys nobody has to look into the tables of letter case.  All names and aliases of the built-in
languages are keys of this kind.
-/

namespace CodeChallenges

namespace Text

/-- A visible character of ASCII that is no capital letter and no dot. -/
def IsPlain (c : Char) : Prop :=
  0x20 < c.toNat ∧ c.toNat < 0x7f ∧ ¬ (0x41 ≤ c.toNat ∧ c.toNat ≤ 0x5a) ∧ c ≠ '.'

instance (c : Char) : Decidable (IsPlain c) :=
  inferInstanceAs (Decidable (_ ∧ _ ∧ _ ∧ _))

/-- All characters are plain. -/
def ArePlain (cs : List Char) : Prop :=
  ∀ c ∈ cs, IsPlain c

-- Of the ways to decide this, the one that looks at the characters of the list only.
instance (cs : List Char) : Decidable (ArePlain cs) :=
  List.decidableBAll IsPlain cs

theorem IsPlain.isBlank_eq_false {c : Char} (h : IsPlain c) : isBlank c = false := by
  obtain ⟨hlow, hhigh, -, -⟩ := h
  simp only [isBlank, Bool.or_eq_false_iff, Bool.and_eq_false_iff, decide_eq_false_iff_not,
    beq_eq_false_iff_ne]
  omega

set_option maxRecDepth 8000 in
/-- Beyond the capital letters of ASCII, lower case concerns higher code points only. -/
theorem first_of_mem_lowerShifts :
    ∀ shift ∈ lowerShifts, shift.first = 0x41 ∧ shift.last = 0x5a ∨ 0x7f ≤ shift.first := by
  decide

theorem IsPlain.lowerChar_eq {c : Char} (h : IsPlain c) (before after : List Char) :
    lowerChar before c after = [c] := by
  obtain ⟨-, hhigh, hcapital, -⟩ := h
  have hsigma : (c == 'Σ') = false := by
    rw [beq_eq_false_iff_ne]
    rintro rfl
    exact absurd hhigh (by decide)
  have hdotted : (c == 'İ') = false := by
    rw [beq_eq_false_iff_ne]
    rintro rfl
    exact absurd hhigh (by decide)
  have hnone : lowerShifts.findSome? (·.image? c.toNat) = none := by
    rw [List.findSome?_eq_none_iff]
    intro shift hshift
    have hfirst := first_of_mem_lowerShifts shift hshift
    rw [CaseShift.image?, if_neg]
    simp only [Bool.and_eq_true, decide_eq_true_eq]
    omega
  rw [lowerChar, hsigma, if_neg Bool.false_ne_true, hdotted, if_neg Bool.false_ne_true,
    shiftedCase, hnone]
  rfl

theorem lower_of_plain {cs : List Char} (h : ArePlain cs) : lower cs = cs := by
  have hfrom : ∀ before, lowerFrom before cs = cs := by
    induction cs with
    | nil =>
        intro before
        rfl
    | cons c cs ih =>
        intro before
        obtain ⟨hc, hcs⟩ := List.forall_mem_cons.mp h
        rw [lowerFrom, hc.lowerChar_eq, ih hcs]
        rfl
  exact hfrom []

/-- Nothing is cut off a text without blanks. -/
theorem trim_of_plain {cs : List Char} (h : ArePlain cs) : trim cs = cs := by
  have hdrop : ∀ {ds : List Char}, ArePlain ds → ds.dropWhile isBlank = ds := by
    intro ds hds
    cases ds with
    | nil => rfl
    | cons d ds => rw [List.dropWhile_cons, (hds d List.mem_cons_self).isBlank_eq_false, if_neg
        Bool.false_ne_true]
  have hreverse : ArePlain cs.reverse := by
    intro c hc
    exact h c (List.mem_reverse.mp hc)
  rw [trim, trimEnd, hdrop h, hdrop hreverse, List.reverse_reverse]

end Text

namespace Language

/-- A key of plain characters is its own normal form. -/
theorem normalize_of_plain {key : String} (h : Text.ArePlain key.toList) : normalize key = key := by
  have hdots : key.toList.dropWhile (· == '.') = key.toList := by
    cases hkey : key.toList with
    | nil => rfl
    | cons c cs =>
        obtain ⟨-, -, -, hdot⟩ := h c (by rw [hkey]; exact List.mem_cons_self)
        rw [List.dropWhile_cons, beq_eq_false_iff_ne.mpr hdot, if_neg Bool.false_ne_true]
  rw [normalize, Text.trim_of_plain h, Text.lower_of_plain h, hdots, String.ofList_toList]

/-- The whole file ranks last: its rank is not below that of any kind of code that the patterns of
the language can find. -/
def RanksFileLast (l : Language) : Prop :=
  ∀ capture kind, l.chunkTypeFor capture = some kind → l.rank kind ≤ l.rank .file

/-- It is enough to look at the table of captures. -/
theorem ranksFileLast_of_captures {l : Language}
    (h : ∀ entry ∈ l.captures, l.rank entry.2 ≤ l.rank .file) : l.RanksFileLast := by
  intro capture kind hkind
  obtain ⟨before, after, hcaptures, -⟩ := List.lookup_eq_some_iff.mp hkind
  refine h (capture, kind) ?_
  rw [hcaptures]
  exact List.mem_append_right before List.mem_cons_self

end Language

namespace BuiltIn

/-- Names and aliases of the built-in languages are their own normal forms. -/
theorem normalize_of_mem {l : Language} (hl : l ∈ languages) {key : String}
    (hkey : key ∈ l.name :: l.aliases) : Language.normalize key = key := by
  have hplain : ∀ l ∈ languages, ∀ key ∈ l.name :: l.aliases, Text.ArePlain key.toList := by
    decide
  exact Language.normalize_of_plain (hplain l hl key hkey)

theorem ranksFileLast {l : Language} (hl : l ∈ languages) : l.RanksFileLast := by
  have hranks : ∀ l ∈ languages, ∀ entry ∈ l.captures, l.rank entry.2 ≤ l.rank .file := by
    decide
  exact Language.ranksFileLast_of_captures (hranks l hl)

end BuiltIn

end CodeChallenges
