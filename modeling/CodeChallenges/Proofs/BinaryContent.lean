import CodeChallenges.BinaryContent
import CodeChallenges.Proofs.Extraction.File
import CodeChallenges.Proofs.Text.Blank
/-!
# Text is not taken for binary

The bytes at the beginning of a text are a text, or they end inside a character.  The bytes of a
character are read one after the other, so that where they stop too early strict reading fails at
the beginning of the character and for no other reason than that (`front_cut`); and no character has
more than four bytes, so that this is among the last three bytes (`decode_cut`).  Such a sample is
text if no null byte is in it.  So the content of a file that is text is taken for binary only if
git says so (`text_not_binary`).
-/

namespace CodeChallenges

namespace Text.Utf8

/-! ## The beginning of a character -/

/-- All continuation bytes that are missing have been read. -/
theorem length_of_continuation_eq_ok {bounds : UInt8 × UInt8} {seen code need : Nat}
    {bytes : List UInt8} {result : Nat × List UInt8}
    (h : continuation bounds seen code need bytes = .ok result) :
    bytes.length = need + result.2.length := by
  induction need generalizing bounds seen code bytes with
  | zero =>
      rw [continuation_zero_iff.mp h, Nat.zero_add]
  | succ need ih =>
      obtain ⟨b, rest, rfl, -, -, h⟩ := continuation_succ_iff.mp h
      rw [List.length_cons, ih h]
      omega

/-- Continuation bytes that stop too early are truncated, and nothing else is wrong with them. -/
theorem continuation_cut {bounds : UInt8 × UInt8} {seen code need : Nat}
    {front back : List UInt8} {result : Nat × List UInt8}
    (h : continuation bounds seen code need (front ++ back) = .ok result)
    (hshort : front.length < need) :
    continuation bounds seen code need front = .error (seen + front.length, .truncated) := by
  induction need generalizing bounds seen code front with
  | zero => exact absurd hshort (Nat.not_lt_zero _)
  | succ need ih =>
      cases front with
      | nil => rfl
      | cons b front =>
          obtain ⟨b', rest, heq, hlo, hhi, h⟩ := continuation_succ_iff.mp h
          obtain ⟨rfl, rfl⟩ := List.cons.inj heq
          have hshort' : front.length < need := Nat.lt_of_succ_lt_succ hshort
          have hwithin : (bounds.1 ≤ b && b ≤ bounds.2) = true := by
            rw [Bool.and_eq_true, decide_eq_true_eq, decide_eq_true_eq, UInt8.le_iff_toNat_le,
              UInt8.le_iff_toNat_le]
            exact ⟨hlo, hhi⟩
          rw [continuation, if_pos hwithin, ih h hshort', List.length_cons, Nat.add_assoc,
            Nat.add_comm 1]

/-- The bytes of a character that stop too early are truncated. -/
theorem front_cut {c : Char} {lead : UInt8} {rest back : List UInt8}
    (h : lead :: (rest ++ back) = String.utf8EncodeChar c) (hback : back ≠ []) :
    front lead rest = .error (1 + rest.length, .truncated) := by
  have hwhole : front lead (rest ++ back) = .ok (c.toNat, []) :=
    front_of_encodeChar (by rw [List.append_nil, h])
  cases hw : announced? lead with
  | none =>
      simp only [front, hw] at hwhole
      cases hwhole
  | some width =>
      rw [front_of_announced hw] at hwhole ⊢
      have hlength := length_of_continuation_eq_ok hwhole
      have hpos := List.length_pos_of_ne_nil hback
      rw [List.length_append, List.length_nil] at hlength
      exact continuation_cut hwhole (by omega)

/-! ## The beginning of a text -/

/-- Reading ended inside a character that begins among the last three bytes. -/
def EndsInside (size : Nat) (outcome : Except DecodeError (List Char)) : Prop :=
  ∃ e, outcome = .error e ∧ e.fault = .truncated ∧ size ≤ e.start + 3

theorem decodeFrom_cut {cs done : List Char} {size : Nat} {front back : List UInt8}
    (h : encode cs = front ++ back) (hsize : front.length ≤ size) :
    (∃ text, decodeFrom size done front = .ok text) ∨
      EndsInside size (decodeFrom size done front) := by
  induction cs generalizing front done with
  | nil =>
      obtain ⟨rfl, -⟩ := List.append_eq_nil_iff.mp h.symm
      exact .inl ⟨done.reverse, by rw [decodeFrom]⟩
  | cons c cs ih =>
      have hwhole : ∀ tail, front = String.utf8EncodeChar c ++ tail → encode cs = tail ++ back →
          (∃ text, decodeFrom size done front = .ok text) ∨
            EndsInside size (decodeFrom size done front) := by
        rintro tail rfl htail
        rw [decodeFrom_encodeChar]
        exact ih htail (by rw [List.length_append] at hsize; omega)
      rw [encode_cons] at h
      rcases List.append_eq_append_iff.mp h with ⟨tail, hfront, htail⟩ | ⟨more, hchar, hback⟩
      · exact hwhole tail hfront htail
      · by_cases hmore : more = []
        · subst hmore
          rw [List.append_nil] at hchar
          exact hwhole [] (by rw [hchar, List.append_nil]) hback.symm
        · cases front with
          | nil => exact .inl ⟨done.reverse, by rw [decodeFrom]⟩
          | cons lead rest =>
              have hcut : Utf8.front lead rest = .error (1 + rest.length, .truncated) :=
                front_cut hchar.symm hmore
              have hfour : (String.utf8EncodeChar c).length ≤ 4 := by
                rw [String.length_utf8EncodeChar]
                exact Char.utf8Size_le_four c
              have hpos := List.length_pos_of_ne_nil hmore
              rw [hchar, List.length_append, List.length_cons] at hfour
              refine .inr ⟨_, decodeFrom_of_front_error hcut, rfl, ?_⟩
              dsimp only
              omega

/-- The bytes at the beginning of a text are a text or end inside a character. -/
theorem decode_cut {bytes : List UInt8} (h : isValid bytes = true) (n : Nat) :
    (∃ text, decode (bytes.take n) = .ok text) ∨
      EndsInside (bytes.take n).length (decode (bytes.take n)) := by
  obtain ⟨cs, rfl⟩ := isValid_iff.mp h
  exact decodeFrom_cut (List.take_append_drop n (encode cs)).symm (Nat.le_refl _)

end Text.Utf8

/-! ## What git prints -/

/-- The line that git prints about a path: the path, the attribute, and the value of the attribute,
with colons between them. -/
def Git.attributeLine (path value : String) : String :=
  path ++ ": binary: " ++ value ++ "\n"

namespace BinaryContent

/-- A line says what its value says, whatever the path is. -/
theorem attributeSays_attributeLine (path : String) {value : String} (h : ':' ∉ value.toList) :
    attributeSays (Git.attributeLine path value) = attributeSays value := by
  have hline : (Git.attributeLine path value).toList =
      (path.toList ++ ": binary".toList) ++ ':' :: (' ' :: value.toList ++ ['\n']) := by
    simp [Git.attributeLine, String.toList_append]
  have hrest : ':' ∉ ' ' :: value.toList ++ ['\n'] := by
    simp [h]
  rw [attributeSays, hline, Text.getLast?_splitOnChar _ hrest, attributeSays,
    Text.splitOnChar_of_not_mem h, List.getLast?_singleton]
  dsimp only [Option.getD_some]
  rw [Text.trim_concat_of_isBlank (by decide), Text.trim_cons_of_isBlank (by decide)]

/-- A value marks a file as binary if it is the word for that, in whatever letter case. -/
theorem attributeSays_eq_true_iff {value : String} (h : ':' ∉ value.toList) :
    attributeSays value = some true ↔
      Text.lower (Text.trim value.toList) = "set".toList := by
  rw [attributeSays, Text.splitOnChar_of_not_mem h, List.getLast?_singleton]
  dsimp only [Option.getD_some]
  rw [← String.ofList_eq]
  split
  · rename_i hset
    exact iff_of_true rfl hset
  · rename_i hunset
    exact iff_of_false nofun (by rw [hunset]; decide)
  · rename_i hfalse
    exact iff_of_false nofun (by rw [hfalse]; decide)
  · rename_i hset _ _
    exact iff_of_false nofun hset

/-- Git marks a file as binary by the value that it prints. -/
theorem verdictOf_attributeLine_iff (path : String) {value : String} (h : ':' ∉ value.toList) :
    verdictOf (some (.ok (Git.attributeLine path value))) = .ok (some true) ↔
      Text.lower (Text.trim value.toList) = "set".toList := by
  rw [verdictOf, Except.ok.injEq, attributeSays_attributeLine path h, attributeSays_eq_true_iff h]

/-! ## Samples and files -/

open Text.Utf8 (isValid decode encode)

/-- No sample of a text looks binary for where it ends. -/
theorem looksBinary_take {bytes : List UInt8} (h : isValid bytes = true) {n : Nat}
    (hnull : 0 ∉ bytes.take n) : looksBinary (bytes.take n) = false := by
  have hcontains : (bytes.take n).contains 0 = false := by
    rw [List.contains_eq_mem, decide_eq_false_iff_not]
    exact hnull
  rw [looksBinary, hcontains, if_neg Bool.false_ne_true]
  rcases Text.Utf8.decode_cut h n with ⟨text, htext⟩ | ⟨e, he, hfault, hstart⟩
  · rw [htext]
  · have hcut : isCutCharacter (bytes.take n).length e = true := by
      rw [isCutCharacter, hfault, Bool.and_eq_true, decide_eq_true_eq]
      exact ⟨rfl, hstart⟩
    rw [he]
    simp only [hcut, Bool.not_true, Bool.false_and]

/-- Unless git marks it as binary, a text is not binary, or git cannot even be asked. -/
theorem isBinary_of_text {content : List UInt8} (h : isValid content = true)
    (hnull : 0 ∉ content.take sampleSize) {answer : Option (Except Git.Failure String)}
    (hmark : verdictOf answer ≠ .ok (some true)) :
    isBinary answer (some content) = (verdictOf answer).map fun _ => false := by
  rw [isBinary]
  cases hverdict : verdictOf answer with
  | error failure => rfl
  | ok verdict =>
      cases verdict with
      | none => exact congrArg Except.ok (looksBinary_take h hnull)
      | some marked =>
          cases marked with
          | false => rfl
          | true => exact absurd hverdict hmark

end BinaryContent

namespace Extraction

open BinaryContent (verdictOf isBinary looksBinary sampleSize)
open Repository (Snapshot Place GitService)
open Repository.Scanner (sampleLanguage sampleRegistry sampleSnapshot sampleWorld sampleOptions
  sampleContent)
open Text.Utf8 (isValid encode)

variable {t : Toolkit} {r : Registry} {o : Options} {l : Language} {path : String}
  {processed : Processed}

/-- Text is skipped only because it cannot be parsed. -/
theorem reason_of_processText {content : List UInt8} {reason : SkipReason}
    (h : processText t r o l path content = .ok processed)
    (hreason : processed.yield = .skipped reason) : reason = .unparseable := by
  obtain ⟨patterns, -, h⟩ := bind_eq_ok_iff.mp h
  obtain ⟨found, -, h⟩ := bind_eq_ok_iff.mp h
  obtain ⟨structural, -, h⟩ := bind_eq_ok_iff.mp h
  obtain ⟨further, -, h⟩ := bind_eq_ok_iff.mp h
  obtain ⟨told, htold, h⟩ := bind_eq_ok_iff.mp h
  cases pure_eq_ok_iff.mp h
  unfold challengesOf at htold
  split at htold
  · cases htold
    cases hreason
    rfl
  · obtain ⟨made, -, h⟩ := bind_eq_ok_iff.mp htold
    cases pure_eq_ok_iff.mp h
    cases hreason

/-- An answer of git matters for what it says. -/
theorem processContent_congr {answer answer' : Option (Except Git.Failure String)}
    (h : verdictOf answer = verdictOf answer') (content : List UInt8) :
    processContent t r o l path answer content = processContent t r o l path answer' content := by
  rw [processContent, processContent, isBinary, isBinary, h]

/-- A content that is not binary is not skipped as binary. -/
theorem yield_ne_binary {answer : Option (Except Git.Failure String)} {content : List UInt8}
    (h : isBinary answer (some content) ≠ .ok true)
    (hprocessed : processContent t r o l path answer content = .ok processed) :
    processed.yield ≠ .skipped .binary := by
  intro hyield
  unfold processContent at hprocessed
  split at hprocessed
  · cases hprocessed
    cases hyield
  · obtain ⟨binary, hbinary, hprocessed⟩ := bind_eq_ok_iff.mp hprocessed
    rw [mapError_eq_ok_iff] at hbinary
    split at hprocessed
    · rename_i htrue
      exact h (htrue ▸ hbinary)
    · split at hprocessed
      · cases hprocessed
        cases hyield
      · cases reason_of_processText hprocessed hyield

/-- **Text is not taken for binary.**  Of well-formed bytes without a null byte, no sample from the
beginning looks binary, wherever it ends.  So a file of well-formed bytes, without a null byte among
those that are looked at, is not binary if git says so, says nothing or leaves the question open;
and it is not skipped as binary unless git marks it as binary, which it does by printing one value
of the attribute, `set` in any letter case. -/
theorem text_not_binary {content : List UInt8} (h : isValid content = true) :
    (0 ∉ content → ∀ n, looksBinary (content.take n) = false) ∧
    (0 ∉ content.take sampleSize →
      (∀ answer verdict, verdictOf answer = .ok verdict → verdict ≠ some true →
        isBinary answer (some content) = .ok false) ∧
      ∀ t r o snapshot root git path l, Snapshot.read? snapshot root path = some content →
        verdictOf (binaryAnswer git path) ≠ .ok (some true) →
        ∀ processed, processFile t r o snapshot root git path l = .ok processed →
          processed.yield ≠ .skipped .binary) ∧
    ∀ path value : String, ':' ∉ value.toList →
      (verdictOf (some (.ok (Git.attributeLine path value))) = .ok (some true) ↔
        Text.lower (Text.trim value.toList) = "set".toList) := by
  refine ⟨?_, fun hnull => ⟨?_, ?_⟩, ?_⟩
  · intro hnull n
    exact BinaryContent.looksBinary_take h fun hmem => hnull (List.mem_of_mem_take hmem)
  · intro answer verdict hverdict hmark
    rw [BinaryContent.isBinary_of_text h hnull fun heq => ?_, hverdict]
    · rfl
    · rw [hverdict] at heq
      exact hmark (Except.ok.inj heq)
  · intro t r o snapshot root git path l hread hmark processed hprocessed
    rw [processFile_eq_processContent hread] at hprocessed
    refine yield_ne_binary ?_ hprocessed
    rw [BinaryContent.isBinary_of_text h hnull hmark]
    cases verdictOf (binaryAnswer git path) with
    | error failure => exact nofun
    | ok verdict => exact nofun
  · intro path value hvalue
    exact BinaryContent.verdictOf_attributeLine_iff path hvalue

/-- A text of which the sample ends inside its last character. -/
def longText : List Char :=
  List.replicate 8191 'a' ++ ['é']

/-- Git where the attribute of every path has one value. -/
def gitPrinting (value : String) : GitService :=
  ⟨true, .exited 0 "" "", fun path => .exited 0 (Git.attributeLine path value) ""⟩

/-- The long text is not binary if git does not answer, or prints that the attribute is not
specified; and the small file, of which git prints the same, gives challenges. -/
theorem text_not_binary_sample :
    isValid (encode longText) = true ∧ 0 ∉ (encode longText).take sampleSize ∧
    looksBinary ((encode longText).take sampleSize) = false ∧
    isBinary (some (.error .notFound)) (some (encode longText)) = .ok false ∧
    isBinary (binaryAnswer (some (gitPrinting "unspecified")) "a:b.txt")
      (some (encode longText)) = .ok false ∧
    isValid sampleContent = true ∧ 0 ∉ sampleContent.take sampleSize ∧
    ∃ processed, processFile sampleToolkit sampleRegistry (sampleOptions []) sampleSnapshot ["r"]
      (some (gitPrinting "unspecified")) "a/b/f.sample" sampleLanguage = .ok processed ∧
      processed.yield ≠ .skipped .binary := by
  have hlong : isValid (encode longText) = true := Text.Utf8.isValid_iff.mpr ⟨longText, rfl⟩
  have hnull : 0 ∉ encode longText := by
    intro hmem
    obtain ⟨c, hc, hzero⟩ := Text.Utf8.exists_char_of_mem_encode hmem (by decide)
    rcases List.mem_append.mp hc with hc | hc
    · cases List.eq_of_mem_replicate hc
      cases hzero
    · cases List.mem_singleton.mp hc
      cases hzero
  have hsample : 0 ∉ (encode longText).take sampleSize :=
    fun hmem => hnull (List.mem_of_mem_take hmem)
  have hsmall : isValid sampleContent = true := Text.Utf8.isValid_iff.mpr ⟨_, rfl⟩
  have hsmallNull : 0 ∉ sampleContent.take sampleSize := by decide
  have hunmarked : ∀ path, verdictOf (binaryAnswer (some (gitPrinting "unspecified")) path) =
      .ok none := by
    intro path
    show (Except.ok (BinaryContent.attributeSays (Git.attributeLine path "unspecified")) :
      Except Git.Failure (Option Bool)) = .ok none
    rw [BinaryContent.attributeSays_attributeLine path (by decide)]
    exact congrArg Except.ok (by decide +kernel)
  obtain ⟨hshort, hwhole, -⟩ := text_not_binary hlong
  obtain ⟨-, hfile, -⟩ := text_not_binary hsmall
  refine ⟨hlong, hsample, hshort hnull sampleSize, (hwhole hsample).1 _ none rfl nofun,
    (hwhole hsample).1 _ none (hunmarked "a:b.txt") nofun, hsmall, hsmallNull, ?_⟩
  obtain ⟨processed, hprocessed⟩ : ∃ processed, processFile sampleToolkit sampleRegistry
      (sampleOptions []) sampleSnapshot ["r"] (some (gitPrinting "unspecified")) "a/b/f.sample"
      sampleLanguage = .ok processed := by
    obtain ⟨made, messages, hok, -⟩ := sample_processed
    rw [processFile_eq_processContent sample_read] at hok ⊢
    have hsilent : verdictOf (binaryAnswer (some sampleWorld.git) "a/b/f.sample") = .ok none :=
      congrArg Except.ok (by decide +kernel)
    rw [processContent_congr ((hunmarked _).trans hsilent.symm)]
    exact ⟨_, hok⟩
  refine ⟨processed, hprocessed, (hfile hsmallNull).2 _ _ _ _ _ _ _ _ sample_read ?_ _ hprocessed⟩
  rw [hunmarked]
  exact nofun

end Extraction

end CodeChallenges
