import CodeChallenges.Proofs.Repository.Scan
import CodeChallenges.Proofs.Text.Utf8
import CodeChallenges.Repository.Fingerprint
/-!
# What a fingerprint is a digest of

Each path and each content stands in the stream behind its length in eight bytes.  The length is
read first and says how many bytes belong to it, so a stream can be cut in one way only, whatever
the bytes are (`fingerprintStream_injective`).  Two scans on the same options with the same stream
have chosen the same files with the same contents (`found_eq_of_stream_eq`).
-/

namespace CodeChallenges

/-! ## Lengths in bytes -/

namespace Sha256

theorem length_bigEndian (width n : Nat) : (bigEndian width n).length = width := by
  induction width generalizing n with
  | zero => rfl
  | succ width ih => rw [bigEndian, List.length_append, ih, List.length_singleton]

/-- A number is known by its bytes if they are enough for it. -/
theorem bigEndian_injective {width m n : Nat} (hm : m < 256 ^ width) (hn : n < 256 ^ width)
    (h : bigEndian width m = bigEndian width n) : m = n := by
  induction width generalizing m n with
  | zero =>
      rw [pow_zero, Nat.lt_one_iff] at hm hn
      rw [hm, hn]
  | succ width ih =>
      rw [pow_succ] at hm hn
      obtain ⟨hhigh, hlow⟩ := List.append_inj h (by rw [length_bigEndian, length_bigEndian])
      have hdiv : m / 256 = n / 256 :=
        ih (Nat.div_lt_of_lt_mul (by omega)) (Nat.div_lt_of_lt_mul (by omega)) hhigh
      have hmod : m % 256 = n % 256 := by
        have hbyte := congrArg UInt8.toNat (List.singleton_inj.mp hlow)
        rwa [Text.Utf8.toNat_byte (Nat.mod_lt m (by decide)),
          Text.Utf8.toNat_byte (Nat.mod_lt n (by decide))] at hbyte
      omega

end Sha256

namespace Repository

/-! ## The stream -/

/-- The most bytes of which the number fits in the stream, and one more. -/
def frameBound : Nat := 2 ^ 64

/-- **A frame can be read in one way**: two streams that begin with frames have the same bytes in
them and the same rest. -/
theorem frame_append_inj {a b rest rest' : List UInt8} (ha : a.length < frameBound)
    (hb : b.length < frameBound) (h : frame a ++ rest = frame b ++ rest') :
    a = b ∧ rest = rest' := by
  have hbound : frameBound = 256 ^ 8 := by decide
  rw [frame, frame, List.append_assoc, List.append_assoc] at h
  obtain ⟨hhead, hbody⟩ := List.append_inj h
    (by rw [Sha256.length_bigEndian, Sha256.length_bigEndian])
  have hlength : a.length = b.length :=
    Sha256.bigEndian_injective (hbound ▸ ha) (hbound ▸ hb) hhead
  exact List.append_inj hbody hlength

/-- The path and the content of a file are short enough for their lengths to be written. -/
def FitsFrames (file : List UInt8 × List UInt8) : Prop :=
  file.1.length < frameBound ∧ file.2.length < frameBound

theorem fingerprintStream_cons (file : List UInt8 × List UInt8)
    (files : List (List UInt8 × List UInt8)) :
    fingerprintStream (file :: files) =
      frame file.1 ++ (frame file.2 ++ fingerprintStream files) := by
  rw [fingerprintStream, List.flatMap_cons, List.append_assoc]
  rfl

/-- A stream that begins with a frame is not empty. -/
theorem fingerprintStream_cons_ne_nil (file : List UInt8 × List UInt8)
    (files : List (List UInt8 × List UInt8)) : fingerprintStream (file :: files) ≠ [] := by
  intro h
  have hlength := congrArg List.length h
  rw [fingerprintStream_cons, frame, List.length_append, List.length_append,
    Sha256.length_bigEndian, List.length_nil] at hlength
  omega

/-- **A stream can be read in one way**: it is that of one list of files only. -/
theorem fingerprintStream_injective {files files' : List (List UInt8 × List UInt8)}
    (hfits : ∀ file ∈ files, FitsFrames file) (hfits' : ∀ file ∈ files', FitsFrames file)
    (h : fingerprintStream files = fingerprintStream files') : files = files' := by
  induction files generalizing files' with
  | nil =>
      cases files' with
      | nil => rfl
      | cons file' files' => exact absurd h.symm (fingerprintStream_cons_ne_nil file' files')
  | cons file files ih =>
      cases files' with
      | nil => exact absurd h (fingerprintStream_cons_ne_nil file files)
      | cons file' files' =>
          obtain ⟨hfile, hfiles⟩ := List.forall_mem_cons.mp hfits
          obtain ⟨hfile', hfiles'⟩ := List.forall_mem_cons.mp hfits'
          rw [fingerprintStream_cons, fingerprintStream_cons] at h
          obtain ⟨hpath, h⟩ := frame_append_inj hfile.1 hfile'.1 h
          obtain ⟨hcontent, h⟩ := frame_append_inj hfile.2 hfile'.2 h
          rw [ih hfiles hfiles' h, Prod.ext hpath hcontent]

/-! ## Scans with one stream -/

namespace Scanner

/-- The language of a chosen file is a matter of its path, the options and the registry. -/
theorem wantedLanguage_of_mem_found {sc : Scanner} {r : Registry} {scan : Outcome}
    (h : sc.run r none = .ok scan) {f : String × Language} (hf : f ∈ scan.found) :
    sc.wantedLanguage r f.1 = some f.2 := by
  obtain ⟨paths, messages, -, rfl⟩ := run_eq_ok_iff.mp h
  obtain ⟨path, -, hchoose⟩ := List.mem_filterMap.mp hf
  rw [choose_eq_some hchoose]
  unfold choose at hchoose
  split at hchoose
  · cases hchoose
  · obtain ⟨l, hwanted, rfl⟩ := Option.map_eq_some_iff.mp hchoose
    exact hwanted

/-- The chosen files are known by their paths. -/
theorem found_eq_filterMap {sc : Scanner} {r : Registry} {scan : Outcome}
    (h : sc.run r none = .ok scan) :
    (scan.found.map Prod.fst).filterMap (fun path => (sc.wantedLanguage r path).map (path, ·)) =
      scan.found := by
  rw [List.filterMap_map]
  refine (List.filterMap_congr ?_).trans List.filterMap_some
  intro f hf
  rw [Function.comp_apply, wantedLanguage_of_mem_found h hf, Option.map_some]

/-- The content of a file as it counts in the stream: that of one that cannot be read is empty. -/
def contentOf (sc : Scanner) (path : String) : List UInt8 :=
  (sc.world.snapshot.read? sc.root path).getD []

/-- **Scans with one stream** on the same options have chosen the same files, with the same
contents. -/
theorem found_eq_of_stream_eq {sc sc' : Scanner} {r : Registry} {scan scan' : Outcome}
    (hscan : sc.run r none = .ok scan) (hscan' : sc'.run r none = .ok scan')
    (hoptions : sc.options = sc'.options)
    (hfits : ∀ file ∈ sc.contents scan.found, FitsFrames file)
    (hfits' : ∀ file ∈ sc'.contents scan'.found, FitsFrames file)
    (h : fingerprintStream (sc.contents scan.found) = fingerprintStream (sc'.contents scan'.found)) :
    scan.found = scan'.found ∧ ∀ f ∈ scan.found, sc.contentOf f.1 = sc'.contentOf f.1 := by
  have hcontents := fingerprintStream_injective hfits hfits' h
  have hencode : Function.Injective fun path : String => Text.Utf8.encode path.toList := by
    intro path path' heq
    exact String.toList_injective (Text.Utf8.encode_injective heq)
  have hpaths : scan.found.map Prod.fst = scan'.found.map Prod.fst := by
    have hfirst := congrArg (List.map Prod.fst) hcontents
    simp only [contents, List.map_map] at hfirst
    refine hencode.list_map ?_
    rw [List.map_map, List.map_map]
    exact hfirst
  have hfound : scan.found = scan'.found := by
    have hwanted : sc.wantedLanguage r = sc'.wantedLanguage r := by
      funext path
      rw [wantedLanguage, wantedLanguage, hoptions]
    rw [← found_eq_filterMap hscan, ← found_eq_filterMap hscan', hpaths, hwanted]
  refine ⟨hfound, ?_⟩
  intro f hf
  rw [← hfound, contents, contents, List.map_inj_left] at hcontents
  exact congrArg Prod.snd (hcontents f hf)

end Scanner

end Repository

end CodeChallenges
