import CodeChallenges.Grammar
import CodeChallenges.Language.BuiltIn
import CodeChallenges.Proofs.Tree.Plain
/-!
# Patterns for one kind

The simplest patterns give a name to every node of a kind.  Their query cannot fail, and it finds the
nodes of the kind in preorder (`queryOf_forKind`).  A kind in parentheses and a name after an at sign
write such a pattern (`rulesOf?_kindText`), and the block patterns of all built-in languages are
written in this way (`BuiltIn.blocksAreKinds`).
-/

namespace CodeChallenges

namespace Tree

/-! ## Rules -/

/-- The rule that gives a name to every node of a kind. -/
def Rule.forKind (kind capture : String) : Rule :=
  ⟨.node (.ofKind kind) [capture] [], []⟩

theorem Rule.matchesAt_forKind (kind capture : String) (n : Node) :
    (Rule.forKind kind capture).pattern.matchesAt n =
      if (NodeTest.ofKind kind).accepts n then [[⟨capture, n⟩]] else [] := by
  simp only [Rule.forKind, Pattern.matchesAt, Pattern.matchesAmong, List.map_cons, List.map_nil,
    List.append_nil]

/-- A query gives a name to the nodes of a kind. -/
def Query.IsForKind (query : Query) (kind capture : String) : Prop :=
  ∀ root, query root =
    .ok ((root.preorder.filter (NodeTest.ofKind kind).accepts).map fun n => [⟨capture, n⟩])

/-- The query of such a rule finds the nodes of the kind in preorder. -/
theorem queryOf_forKind (kind capture : String) (source : List UInt8) :
    (queryOf [.forKind kind capture] source).IsForKind kind capture := by
  intro root
  have hquery : queryOf [.forKind kind capture] source root =
      .ok (root.preorder.flatMap (Rule.forKind kind capture).pattern.matchesAt) :=
    queryOf_plain _ source root
  refine hquery.trans (congrArg Except.ok ?_)
  induction root.preorder with
  | nil => rfl
  | cons n ns ih =>
      rw [List.flatMap_cons, ih, Rule.matchesAt_forKind, List.filter_cons]
      split <;> rfl

/-- Nodes under one name are one group. -/
theorem groupCaptures_of_one_name (name : String) (nodes : List Node) :
    groupCaptures (nodes.map (Capture.mk name)) = if nodes = [] then [] else [(name, nodes)] := by
  induction nodes using List.reverseRecOn with
  | nil => rfl
  | append_singleton nodes n ih =>
      have hne : nodes ++ [n] ≠ [] := List.append_ne_nil_of_right_ne_nil nodes (List.cons_ne_nil n [])
      rw [groupCaptures, List.map_append, List.map_singleton, List.foldl_append, List.foldl_cons,
        List.foldl_nil, ← groupCaptures, ih, if_neg hne]
      by_cases hnil : nodes = []
      · rw [if_pos hnil, hnil]
        rfl
      · rw [if_neg hnil]
        simp only [addCapture, beq_self_eq_true, if_true]

/-! ## Texts -/

namespace Pattern

/-- Characters of kinds and of names for kinds of code. -/
def isKindChar (c : Char) : Bool :=
  c.isAlphanum || c == '_'

/-- A kind in parentheses and a name after an at sign. -/
def kindText (kind capture : List Char) : List Char :=
  '(' :: (kind ++ ')' :: ' ' :: '@' :: capture)

/-- A kind is a word, and not the one that stands for all kinds. -/
structure IsKind (kind : List Char) : Prop where
  ne_nil : kind ≠ []
  ne_any : kind ≠ ['_']
  chars : ∀ c ∈ kind, isKindChar c = true

/-- Such characters are visible characters of ASCII. -/
theorem toNat_of_isKindChar {c : Char} (h : isKindChar c = true) :
    0x20 < c.toNat ∧ c.toNat < 0x7f := by
  have hranges : (((decide ('A'.val ≤ c.val ∧ c.val ≤ 'Z'.val) ||
      ('a'.val ≤ c.val && c.val ≤ 'z'.val)) || c.isDigit) || c == '_') = true := h
  simp only [Bool.or_eq_true, Bool.and_eq_true, decide_eq_true_eq, beq_iff_eq,
    Char.isDigit_iff_toNat] at hranges
  have hbetween : ∀ {low high : UInt32}, low ≤ c.val ∧ c.val ≤ high →
      low.toNat ≤ c.toNat ∧ c.toNat ≤ high.toNat := fun h =>
    ⟨UInt32.le_iff_toNat_le.mp h.1, UInt32.le_iff_toNat_le.mp h.2⟩
  rcases hranges with ((hupper | hlower) | hdigit) | rfl
  · have hcode : 0x41 ≤ c.toNat ∧ c.toNat ≤ 0x5a := hbetween hupper
    omega
  · have hcode : 0x61 ≤ c.toNat ∧ c.toNat ≤ 0x7a := hbetween hlower
    omega
  · have hcode : 0x30 ≤ c.toNat ∧ c.toNat ≤ 0x39 := hdigit
    omega
  · decide

theorem isBlank_of_isKindChar {c : Char} (h : isKindChar c = true) : Text.isBlank c = false := by
  have hvisible := toNat_of_isKindChar h
  simp only [Text.isBlank, Bool.or_eq_false_iff, Bool.and_eq_false_iff, decide_eq_false_iff_not,
    beq_eq_false_iff_ne]
  omega

theorem isWordStart_of_isKindChar {c : Char} (h : isKindChar c = true) : isWordStart c = true := by
  rw [isWordStart, ← isKindChar, h]
  rfl

theorem isWordChar_of_isKindChar {c : Char} (h : isKindChar c = true) : isWordChar c = true := by
  rw [isWordChar, ← isKindChar, h]
  rfl

/-- A word ends before a character that no word has. -/
theorem takeWord_append {word rest : List Char} (hword : ∀ c ∈ word, isKindChar c = true)
    (hrest : ∀ c ∈ rest.head?, isWordChar c = false) :
    takeWord (word ++ rest) = (String.ofList word, rest) := by
  have hall : ∀ c ∈ word, isWordChar c = true := fun c hc => isWordChar_of_isKindChar (hword c hc)
  rw [takeWord, List.takeWhile_append_of_pos hall, List.dropWhile_append_of_pos hall]
  cases rest with
  | nil => rw [List.takeWhile_nil, List.append_nil, List.dropWhile_nil]
  | cons c rest =>
      have hc := hrest c rfl
      rw [List.takeWhile_cons_of_neg (by simp [hc]), List.append_nil,
        List.dropWhile_cons_of_neg (by simp [hc])]

/-- The token of a kind is the word. -/
theorem takeToken_kind {kind rest : List Char} (h : IsKind kind)
    (hrest : ∀ c ∈ rest.head?, isWordChar c = false) :
    takeToken (kind ++ rest) = some (some (.word (String.ofList kind)), rest) := by
  have hword := takeWord_append h.chars hrest
  obtain ⟨c, cs, rfl⟩ := List.exists_cons_of_ne_nil h.ne_nil
  have hc := h.chars c List.mem_cons_self
  have hne : ∀ {d}, isKindChar d = false → c ≠ d := by
    rintro d hd rfl
    rw [hc] at hd
    cases hd
  -- A word that begins with an underscore goes on with another character of a kind.
  have hdot : ∀ more, c = '_' → cs ++ rest = '.' :: more → False := by
    rintro more rfl hmore
    cases cs with
    | nil => exact h.ne_any rfl
    | cons d ds =>
        have hd := h.chars d (List.mem_cons_of_mem _ List.mem_cons_self)
        rw [(List.cons.inj hmore).1] at hd
        exact absurd hd (by decide)
  rw [List.cons_append] at hword ⊢
  rw [takeToken.eq_def]
  split <;> rename_i heq
  case h_1 => cases heq
  case h_7 => exact (hdot _ (List.cons.inj heq).1 (List.cons.inj heq).2).elim
  case h_13 =>
    obtain ⟨rfl, rfl⟩ := List.cons.inj heq
    rw [isBlank_of_isKindChar hc, isWordStart_of_isKindChar hc, hword]
    rfl
  all_goals exact absurd (List.cons.inj heq).1 (hne rfl)

theorem tokensFrom_of_takeToken {fuel : Nat} {c : Char} {cs rest : List Char} {t : Option Token}
    {ts : List Token} (ht : takeToken (c :: cs) = some (t, rest))
    (hts : tokensFrom fuel rest = some ts) :
    tokensFrom (fuel + 1) (c :: cs) = some (t.toList ++ ts) := by
  simp only [tokensFrom, ht, hts, Option.bind_eq_bind, Option.bind_some, Option.pure_def]

/-- The tokens of a text for one kind. -/
theorem tokens_kindText {kind capture : List Char} (hkind : IsKind kind)
    (hcapture : ∀ c ∈ capture, isKindChar c = true) :
    tokens (String.ofList (kindText kind capture)) = some [.openNode,
      .word (String.ofList kind), .closeNode, .capture (String.ofList capture)] := by
  obtain ⟨c, cs, rfl⟩ := List.exists_cons_of_ne_nil hkind.ne_nil
  have hword : takeToken (c :: cs ++ ')' :: ' ' :: '@' :: capture) =
      some (some (.word (String.ofList (c :: cs))), ')' :: ' ' :: '@' :: capture) :=
    takeToken_kind hkind fun _ hc => Option.some.inj hc ▸ by decide
  have hname : takeToken ('@' :: capture) = some (some (.capture (String.ofList capture)), []) := by
    have htake : takeWord (capture ++ []) = (String.ofList capture, []) :=
      takeWord_append hcapture fun _ hc => absurd hc (Option.not_mem_none _)
    rw [List.append_nil] at htake
    have htoken : takeToken ('@' :: capture) =
        some (some (.capture (takeWord capture).1), (takeWord capture).2) := rfl
    rw [htoken, htake]
  rw [tokens, String.toList_ofList]
  have hlength : (kindText (c :: cs) capture).length = cs.length + capture.length + 5 := by
    simp only [kindText, List.length_cons, List.length_append]
    omega
  have hend : tokensFrom (cs.length + capture.length) [] = some [] := by
    rw [tokensFrom]
  rw [hlength]
  refine tokensFrom_of_takeToken (t := some .openNode) rfl ?_
  refine tokensFrom_of_takeToken hword ?_
  refine tokensFrom_of_takeToken (t := some .closeNode) rfl ?_
  refine tokensFrom_of_takeToken (t := none) rfl ?_
  exact tokensFrom_of_takeToken hname hend

/-- **A text for one kind** writes the rule that gives the name to every node of the kind. -/
theorem rulesOf?_kindText {kind capture : List Char} (hkind : IsKind kind)
    (hcapture : ∀ c ∈ capture, isKindChar c = true) :
    rulesOf? (String.ofList (kindText kind capture)) =
      some [.forKind (String.ofList kind) (String.ofList capture)] := by
  have hany : (String.ofList kind == "_") = false := by
    rw [beq_eq_false_iff_ne]
    intro heq
    exact hkind.ne_any (by rw [← String.toList_ofList (l := kind), heq]; rfl)
  have htest : testOf (String.ofList kind) = .ofKind (String.ofList kind) := by
    rw [testOf, hany, if_neg Bool.false_ne_true]
  rw [rulesOf?, tokens_kindText hkind hcapture]
  show some [Rule.mk (.node (testOf (String.ofList kind)) [String.ofList capture] []) []] = _
  rw [htest]
  rfl

end Pattern

end Tree

/-! ## The block patterns of the built-in languages -/

/-- Each block pattern of a language names the nodes of one kind. -/
def Language.BlocksAreKinds (l : Language) : Prop :=
  ∀ text ∈ Grammar.trimPatterns l.blockPatterns, ∃ kind capture,
    Tree.Pattern.rulesOf? text = some [.forKind kind capture]

namespace BuiltIn

open Tree.Pattern

/-- The kind in a text for one kind. -/
def kindIn (cs : List Char) : List Char :=
  cs.tail.takeWhile isKindChar

/-- The name in a text for one kind. -/
def captureIn (cs : List Char) : List Char :=
  (cs.tail.dropWhile isKindChar).drop 3

/-- Whether a text is one for one kind, with no blanks around it. -/
def isKindText (cs : List Char) : Bool :=
  cs == kindText (kindIn cs) (captureIn cs) && kindIn cs != [] && kindIn cs != ['_'] &&
    (captureIn cs).all isKindChar && Text.trim cs == cs

theorem exists_rule_of_isKindText (cs : List Char) (h : isKindText cs = true) :
    ∃ kind capture, rulesOf? (Text.trimmed (String.ofList cs)) = some [.forKind kind capture] := by
  simp only [isKindText, Bool.and_eq_true, beq_iff_eq, bne_iff_ne, List.all_eq_true] at h
  obtain ⟨⟨⟨⟨hparts, hne⟩, hany⟩, hcapture⟩, htrim⟩ := h
  have hkind : IsKind (kindIn cs) := ⟨hne, hany, List.all_eq_true.mp List.all_takeWhile⟩
  rw [Text.trimmed, String.toList_ofList, htrim, hparts]
  exact ⟨_, _, rulesOf?_kindText hkind hcapture⟩

/-- The block patterns of all built-in languages name the nodes of one kind each. -/
theorem blocksAreKinds : ∀ l ∈ languages, l.BlocksAreKinds := by
  have hraw : ∀ l ∈ languages, ∀ raw ∈ l.blockPatterns, ∃ kind capture,
      rulesOf? (Text.trimmed raw) = some [.forKind kind capture] := by
    simp only [languages, List.forall_mem_cons]
    and_intros
    all_goals
      -- A literal is unified with the text of its characters, which no decoding has to find.
      repeat' refine List.forall_mem_cons.mpr ⟨exists_rule_of_isKindText _ rfl, ?_⟩
      exact List.forall_mem_nil _
  intro l hl text htext
  obtain ⟨raw, hmem, rfl⟩ := List.mem_map.mp (List.mem_filter.mp htext).1
  exact hraw l hl raw hmem

end BuiltIn

end CodeChallenges
