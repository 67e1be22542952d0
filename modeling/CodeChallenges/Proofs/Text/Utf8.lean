import CodeChallenges.Span
import CodeChallenges.Text.Utf8
import Mathlib.Tactic.SplitIfs
/-!
# Reading undoes writing

`decode` reads exactly the byte sequences that `encode` writes, and gives back the text:
`decode_eq_ok_iff`.  Everything about well-formed bytes follows from it, since from then on a
well-formed sequence is just the encoding of some text.

A *boundary* of a byte sequence is a place between two of its characters.  What lies between two
boundaries is the encoding of a piece of the text (`IsBoundary.exists_encode`), and the place
after an ASCII byte is one (`isBoundary_succ_of_ascii`): no byte of a longer character looks like
ASCII.
-/

namespace CodeChallenges.Text.Utf8

/-! ## The front of a byte sequence -/

theorem toNat_charOfNat {n : Nat} (h : n < 0xd800 ∨ 0xdfff < n ∧ n < 0x110000) :
    (Char.ofNat n).toNat = n := by
  have hv : n.isValidChar := h
  rw [Char.ofNat, dif_pos hv]
  rfl

theorem announced?_eq_some_iff {lead : UInt8} {width : Nat} :
    announced? lead = some width ↔
      (lead.toNat < 0x80 ∧ width = 1) ∨ (0xc2 ≤ lead.toNat ∧ lead.toNat < 0xe0 ∧ width = 2) ∨
        (0xe0 ≤ lead.toNat ∧ lead.toNat < 0xf0 ∧ width = 3) ∨
          (0xf0 ≤ lead.toNat ∧ lead.toNat < 0xf5 ∧ width = 4) := by
  simp only [announced?, UInt8.lt_iff_toNat_lt, UInt8.reduceToNat]
  split_ifs <;> simp only [Option.some.injEq, false_iff] <;> omega

/-- What a second byte has to be, by the first. -/
theorem within_secondBounds_iff (lead b : UInt8) :
    (secondBounds lead).1.toNat ≤ b.toNat ∧ b.toNat ≤ (secondBounds lead).2.toNat ↔
      (0x80 ≤ b.toNat ∧ b.toNat ≤ 0xbf) ∧ (lead.toNat = 0xe0 → 0xa0 ≤ b.toNat) ∧
        (lead.toNat = 0xed → b.toNat ≤ 0x9f) ∧ (lead.toNat = 0xf0 → 0x90 ≤ b.toNat) ∧
          (lead.toNat = 0xf4 → b.toNat ≤ 0x8f) := by
  simp only [secondBounds, beq_iff_eq, ← UInt8.toNat_inj, UInt8.reduceToNat]
  split_ifs <;> simp only [UInt8.reduceToNat] <;> omega

/-- One continuation byte is read if there is one within the bounds. -/
theorem continuation_succ_iff {bounds : UInt8 × UInt8} {seen code need : Nat}
    {bytes : List UInt8} {result : Nat × List UInt8} :
    continuation bounds seen code (need + 1) bytes = .ok result ↔
      ∃ b rest, bytes = b :: rest ∧ bounds.1.toNat ≤ b.toNat ∧ b.toNat ≤ bounds.2.toNat ∧
        continuation (0x80, 0xbf) (seen + 1) (code * 0x40 + b.toNat % 0x40) need rest
          = .ok result := by
  cases bytes with
  | nil => simp [continuation]
  | cons b rest =>
      simp only [continuation, Bool.and_eq_true, decide_eq_true_eq, UInt8.le_iff_toNat_le]
      constructor
      · intro h
        split at h
        · rename_i hb
          exact ⟨b, rest, rfl, hb.1, hb.2, h⟩
        · cases h
      · rintro ⟨b', rest', heq, hlo, hhi, h⟩
        cases heq
        rw [if_pos ⟨hlo, hhi⟩]
        exact h

theorem continuation_zero_iff {bounds : UInt8 × UInt8} {seen code : Nat} {bytes : List UInt8}
    {result : Nat × List UInt8} :
    continuation bounds seen code 0 bytes = .ok result ↔ result = (code, bytes) := by
  simp only [continuation, Except.ok.injEq]
  exact eq_comm

/-! ### The bytes of a character, by their number -/

theorem encodeChar_one {c : Char} (h : c.toNat ≤ 0x7f) :
    String.utf8EncodeChar c = [UInt8.ofNat c.toNat] := by
  have h' : c.val.toNat ≤ 0x7f := h
  simp only [String.utf8EncodeChar, if_pos h']
  rfl

theorem encodeChar_two {c : Char} (h : 0x7f < c.toNat) (h' : c.toNat ≤ 0x7ff) :
    String.utf8EncodeChar c =
      [UInt8.ofNat (c.toNat / 64 % 0x20 + 0xc0), UInt8.ofNat (c.toNat % 0x40 + 0x80)] := by
  have h1 : ¬ c.val.toNat ≤ 0x7f := Nat.not_le.mpr h
  have h2 : c.val.toNat ≤ 0x7ff := h'
  simp only [String.utf8EncodeChar, if_neg h1, if_pos h2]
  rfl

theorem encodeChar_three {c : Char} (h : 0x7ff < c.toNat) (h' : c.toNat ≤ 0xffff) :
    String.utf8EncodeChar c =
      [UInt8.ofNat (c.toNat / 4096 % 0x10 + 0xe0), UInt8.ofNat (c.toNat / 64 % 0x40 + 0x80),
        UInt8.ofNat (c.toNat % 0x40 + 0x80)] := by
  have h1 : ¬ c.val.toNat ≤ 0x7f := Nat.not_le.mpr (Nat.lt_trans (by decide) h)
  have h2 : ¬ c.val.toNat ≤ 0x7ff := Nat.not_le.mpr h
  have h3 : c.val.toNat ≤ 0xffff := h'
  simp only [String.utf8EncodeChar, if_neg h1, if_neg h2, if_pos h3]
  rfl

theorem encodeChar_four {c : Char} (h : 0xffff < c.toNat) :
    String.utf8EncodeChar c =
      [UInt8.ofNat (c.toNat / 262144 % 0x08 + 0xf0), UInt8.ofNat (c.toNat / 4096 % 0x40 + 0x80),
        UInt8.ofNat (c.toNat / 64 % 0x40 + 0x80), UInt8.ofNat (c.toNat % 0x40 + 0x80)] := by
  have h1 : ¬ c.val.toNat ≤ 0x7f := Nat.not_le.mpr (Nat.lt_trans (by decide) h)
  have h2 : ¬ c.val.toNat ≤ 0x7ff := Nat.not_le.mpr (Nat.lt_trans (by decide) h)
  have h3 : ¬ c.val.toNat ≤ 0xffff := Nat.not_le.mpr h
  simp only [String.utf8EncodeChar, if_neg h1, if_neg h2, if_neg h3]
  rfl

theorem toNat_byte {n : Nat} (h : n < 256) : (UInt8.ofNat n).toNat = n :=
  UInt8.toNat_ofNat_of_lt' h

theorem byte_eq_ofNat {b : UInt8} {n : Nat} (h : b.toNat = n) : b = UInt8.ofNat n := by
  rw [← h, UInt8.ofNat_toNat]

/-- A character that is read at the front has its bytes there. -/
theorem exists_char_of_front {lead : UInt8} {rest tail : List UInt8} {code : Nat}
    (h : front lead rest = .ok (code, tail)) :
    ∃ c : Char, c.toNat = code ∧ lead :: rest = String.utf8EncodeChar c ++ tail := by
  unfold front at h
  cases hw : announced? lead with
  | none => simp only [hw] at h; cases h
  | some width =>
      simp only [hw] at h
      rcases announced?_eq_some_iff.mp hw with
        ⟨h1, rfl⟩ | ⟨h1, h2, rfl⟩ | ⟨h1, h2, rfl⟩ | ⟨h1, h2, rfl⟩
      · obtain ⟨rfl, rfl⟩ := Prod.mk.inj (continuation_zero_iff.mp h)
        have hc : (Char.ofNat lead.toNat).toNat = lead.toNat := toNat_charOfNat (by omega)
        refine ⟨Char.ofNat lead.toNat, hc, ?_⟩
        rw [encodeChar_one (by omega), hc, UInt8.ofNat_toNat]
        rfl
      · obtain ⟨b, rest, rfl, hlo, hhi, h⟩ := continuation_succ_iff.mp h
        obtain ⟨rfl, rfl⟩ := Prod.mk.inj (continuation_zero_iff.mp h)
        have hb := (within_secondBounds_iff lead b).mp ⟨hlo, hhi⟩
        have hc := toNat_charOfNat (n := lead.toNat % 0x20 * 0x40 + b.toNat % 0x40) (by omega)
        refine ⟨_, hc, ?_⟩
        rw [encodeChar_two (by omega) (by omega), hc, ← byte_eq_ofNat (b := lead) (by omega),
          ← byte_eq_ofNat (b := b) (by omega)]
        rfl
      · obtain ⟨b, rest, rfl, hlo, hhi, h⟩ := continuation_succ_iff.mp h
        obtain ⟨d, rest, rfl, hlo', hhi', h⟩ := continuation_succ_iff.mp h
        obtain ⟨rfl, rfl⟩ := Prod.mk.inj (continuation_zero_iff.mp h)
        have hb := (within_secondBounds_iff lead b).mp ⟨hlo, hhi⟩
        simp only [UInt8.reduceToNat] at hlo' hhi'
        have hc := toNat_charOfNat
          (n := (lead.toNat % 0x10 * 0x40 + b.toNat % 0x40) * 0x40 + d.toNat % 0x40) (by omega)
        refine ⟨_, hc, ?_⟩
        rw [encodeChar_three (by omega) (by omega), hc, ← byte_eq_ofNat (b := lead) (by omega),
          ← byte_eq_ofNat (b := b) (by omega), ← byte_eq_ofNat (b := d) (by omega)]
        rfl
      · obtain ⟨b, rest, rfl, hlo, hhi, h⟩ := continuation_succ_iff.mp h
        obtain ⟨d, rest, rfl, hlo', hhi', h⟩ := continuation_succ_iff.mp h
        obtain ⟨e, rest, rfl, hlo'', hhi'', h⟩ := continuation_succ_iff.mp h
        obtain ⟨rfl, rfl⟩ := Prod.mk.inj (continuation_zero_iff.mp h)
        have hb := (within_secondBounds_iff lead b).mp ⟨hlo, hhi⟩
        simp only [UInt8.reduceToNat] at hlo' hhi' hlo'' hhi''
        have hc := toNat_charOfNat
          (n := ((lead.toNat % 0x08 * 0x40 + b.toNat % 0x40) * 0x40 + d.toNat % 0x40) * 0x40
            + e.toNat % 0x40) (by omega)
        refine ⟨_, hc, ?_⟩
        rw [encodeChar_four (by omega), hc, ← byte_eq_ofNat (b := lead) (by omega),
          ← byte_eq_ofNat (b := b) (by omega), ← byte_eq_ofNat (b := d) (by omega),
          ← byte_eq_ofNat (b := e) (by omega)]
        rfl

theorem front_of_announced {lead : UInt8} {rest : List UInt8} {width : Nat}
    (h : announced? lead = some width) :
    front lead rest =
      continuation (secondBounds lead) 1 (leadPayload width lead) (width - 1) rest := by
  simp only [front, h]

/-- The bytes of a character at the front are read as that character. -/
theorem front_of_encodeChar {c : Char} {lead : UInt8} {rest tail : List UInt8}
    (h : lead :: rest = String.utf8EncodeChar c ++ tail) :
    front lead rest = .ok (c.toNat, tail) := by
  have hv : c.toNat < 0xd800 ∨ 0xdfff < c.toNat ∧ c.toNat < 0x110000 := c.valid
  by_cases h1 : c.toNat ≤ 0x7f
  · rw [encodeChar_one h1] at h
    have hl := toNat_byte (n := c.toNat) (by omega)
    generalize UInt8.ofNat c.toNat = l at h hl
    obtain ⟨rfl, rfl⟩ := List.cons.inj h
    have ha : announced? lead = some 1 := announced?_eq_some_iff.mpr (by omega)
    rw [front_of_announced ha, continuation_zero_iff, leadPayload, hl]
  by_cases h2 : c.toNat ≤ 0x7ff
  · rw [encodeChar_two (by omega) h2] at h
    have hl := toNat_byte (n := c.toNat / 64 % 0x20 + 0xc0) (by omega)
    have hb := toNat_byte (n := c.toNat % 0x40 + 0x80) (by omega)
    generalize UInt8.ofNat (c.toNat / 64 % 0x20 + 0xc0) = l at h hl
    generalize UInt8.ofNat (c.toNat % 0x40 + 0x80) = b at h hb
    obtain ⟨rfl, rfl⟩ := List.cons.inj h
    have ha : announced? lead = some 2 := announced?_eq_some_iff.mpr (by omega)
    rw [front_of_announced ha]
    have hw := (within_secondBounds_iff lead b).mpr (by omega)
    refine continuation_succ_iff.mpr ⟨b, tail, rfl, hw.1, hw.2, ?_⟩
    rw [continuation_zero_iff, leadPayload]
    congr 1
    omega
  by_cases h3 : c.toNat ≤ 0xffff
  · rw [encodeChar_three (by omega) h3] at h
    have hl := toNat_byte (n := c.toNat / 4096 % 0x10 + 0xe0) (by omega)
    have hb := toNat_byte (n := c.toNat / 64 % 0x40 + 0x80) (by omega)
    have hd := toNat_byte (n := c.toNat % 0x40 + 0x80) (by omega)
    generalize UInt8.ofNat (c.toNat / 4096 % 0x10 + 0xe0) = l at h hl
    generalize UInt8.ofNat (c.toNat / 64 % 0x40 + 0x80) = b at h hb
    generalize UInt8.ofNat (c.toNat % 0x40 + 0x80) = d at h hd
    obtain ⟨rfl, rfl⟩ := List.cons.inj h
    have ha : announced? lead = some 3 := announced?_eq_some_iff.mpr (by omega)
    rw [front_of_announced ha]
    have hw := (within_secondBounds_iff lead b).mpr (by omega)
    refine continuation_succ_iff.mpr ⟨b, d :: tail, rfl, hw.1, hw.2, ?_⟩
    refine continuation_succ_iff.mpr ⟨d, tail, rfl, ?_, ?_, ?_⟩
    · simp only [UInt8.reduceToNat]; omega
    · simp only [UInt8.reduceToNat]; omega
    rw [continuation_zero_iff, leadPayload]
    congr 1
    omega
  · rw [encodeChar_four (by omega)] at h
    have hl := toNat_byte (n := c.toNat / 262144 % 0x08 + 0xf0) (by omega)
    have hb := toNat_byte (n := c.toNat / 4096 % 0x40 + 0x80) (by omega)
    have hd := toNat_byte (n := c.toNat / 64 % 0x40 + 0x80) (by omega)
    have he := toNat_byte (n := c.toNat % 0x40 + 0x80) (by omega)
    generalize UInt8.ofNat (c.toNat / 262144 % 0x08 + 0xf0) = l at h hl
    generalize UInt8.ofNat (c.toNat / 4096 % 0x40 + 0x80) = b at h hb
    generalize UInt8.ofNat (c.toNat / 64 % 0x40 + 0x80) = d at h hd
    generalize UInt8.ofNat (c.toNat % 0x40 + 0x80) = e at h he
    obtain ⟨rfl, rfl⟩ := List.cons.inj h
    have ha : announced? lead = some 4 := announced?_eq_some_iff.mpr (by omega)
    rw [front_of_announced ha]
    have hw := (within_secondBounds_iff lead b).mpr (by omega)
    refine continuation_succ_iff.mpr ⟨b, d :: e :: tail, rfl, hw.1, hw.2, ?_⟩
    refine continuation_succ_iff.mpr ⟨d, e :: tail, rfl, ?_, ?_, ?_⟩
    · simp only [UInt8.reduceToNat]; omega
    · simp only [UInt8.reduceToNat]; omega
    have hp : leadPayload 4 lead = lead.toNat % 0x08 := rfl
    refine continuation_succ_iff.mpr ⟨e, tail, rfl, ?_, ?_, ?_⟩
    · simp only [UInt8.reduceToNat]; omega
    · simp only [UInt8.reduceToNat]; omega
    rw [continuation_zero_iff, hp]
    congr 1
    omega

/-! ## Whole byte sequences -/

@[simp]
theorem encode_nil : encode [] = [] := rfl

@[simp]
theorem encode_cons (c : Char) (cs : List Char) :
    encode (c :: cs) = String.utf8EncodeChar c ++ encode cs := rfl

@[simp]
theorem encode_append (cs ds : List Char) : encode (cs ++ ds) = encode cs ++ encode ds :=
  List.flatMap_append

/-- Strict reading goes on behind a character. -/
theorem decodeFrom_of_front {size : Nat} {done : List Char} {lead : UInt8} {rest tail : List UInt8}
    {code : Nat} (h : front lead rest = .ok (code, tail)) :
    decodeFrom size done (lead :: rest) = decodeFrom size (Char.ofNat code :: done) tail := by
  rw [decodeFrom]
  split
  · rename_i code' tail' h'
    cases h.symm.trans h'
    rfl
  · rename_i h'
    cases h.symm.trans h'

/-- Strict reading stops where no character can be read. -/
theorem decodeFrom_of_front_error {size : Nat} {done : List Char} {lead : UInt8}
    {rest : List UInt8} {width : Nat} {fault : Fault} (h : front lead rest = .error (width, fault)) :
    decodeFrom size done (lead :: rest) =
      .error ⟨size - (rest.length + 1), size - (rest.length + 1) + width, lead, fault⟩ := by
  rw [decodeFrom]
  split
  · rename_i h'
    cases h.symm.trans h'
  · rename_i width' fault' h'
    cases h.symm.trans h'
    rfl

/-- The bytes of a character begin with one from which the character is read. -/
theorem exists_front_encodeChar (c : Char) : ∃ lead rest, String.utf8EncodeChar c = lead :: rest ∧
    ∀ tail, front lead (rest ++ tail) = .ok (c.toNat, tail) := by
  obtain ⟨lead, rest, hb⟩ := List.exists_cons_of_ne_nil (@String.utf8EncodeChar_ne_nil c)
  exact ⟨lead, rest, hb, fun tail => front_of_encodeChar (by rw [hb]; rfl)⟩

/-- Strict reading takes one character after the other. -/
theorem decodeFrom_encodeChar (size : Nat) (done : List Char) (c : Char) (tail : List UInt8) :
    decodeFrom size done (String.utf8EncodeChar c ++ tail) = decodeFrom size (c :: done) tail := by
  obtain ⟨lead, rest, hb, hfront⟩ := exists_front_encodeChar c
  rw [hb, List.cons_append, decodeFrom_of_front (hfront tail), Char.ofNat_toNat]

theorem decodeFrom_encode (size : Nat) (cs done : List Char) :
    decodeFrom size done (encode cs) = .ok (done.reverse ++ cs) := by
  induction cs generalizing done with
  | nil => rw [encode_nil, decodeFrom, List.append_nil]
  | cons c cs ih =>
      rw [encode_cons, decodeFrom_encodeChar, ih, List.reverse_cons, List.append_assoc,
        List.singleton_append]

theorem exists_encode_of_decodeFrom {size : Nat} {done cs : List Char} {bytes : List UInt8}
    (h : decodeFrom size done bytes = .ok cs) :
    ∃ more, cs = done.reverse ++ more ∧ bytes = encode more := by
  fun_induction decodeFrom size done bytes with
  | case1 done =>
      cases h
      exact ⟨[], by simp, rfl⟩
  | case2 done lead rest code tail hf ih =>
      obtain ⟨more, rfl, rfl⟩ := ih h
      obtain ⟨c, rfl, hc⟩ := exists_char_of_front hf
      refine ⟨c :: more, ?_, hc⟩
      simp only [Char.ofNat_toNat, List.reverse_cons, List.append_assoc, List.singleton_append]
  | case3 => cases h

/-- **Reading undoes writing**: a byte sequence is read as a text exactly if it is the encoding of
that text. -/
theorem decode_eq_ok_iff {bytes : List UInt8} {cs : List Char} :
    decode bytes = .ok cs ↔ bytes = encode cs := by
  constructor
  · intro h
    obtain ⟨more, rfl, hb⟩ := exists_encode_of_decodeFrom h
    exact hb
  · rintro rfl
    exact decodeFrom_encode _ cs []

theorem decode_encode (cs : List Char) : decode (encode cs) = .ok cs :=
  decode_eq_ok_iff.mpr rfl

/-- Lenient reading takes one character after the other. -/
theorem decodeLossyFrom_encodeChar (done : List Char) (c : Char) (tail : List UInt8) :
    decodeLossyFrom done (String.utf8EncodeChar c ++ tail) = decodeLossyFrom (c :: done) tail := by
  obtain ⟨lead, rest, hb, hfront⟩ := exists_front_encodeChar c
  rw [hb, List.cons_append, decodeLossyFrom]
  split
  · rename_i code tail' h
    cases (hfront tail).symm.trans h
    rw [Char.ofNat_toNat]
  · rename_i h
    cases (hfront tail).symm.trans h

theorem decodeLossyFrom_encode (cs done : List Char) :
    decodeLossyFrom done (encode cs) = done.reverse ++ cs := by
  induction cs generalizing done with
  | nil => rw [encode_nil, decodeLossyFrom, List.append_nil]
  | cons c cs ih =>
      rw [encode_cons, decodeLossyFrom_encodeChar, ih, List.reverse_cons, List.append_assoc,
        List.singleton_append]

/-- Lenient reading of a text is reading. -/
theorem decodeLossy_encode (cs : List Char) : decodeLossy (encode cs) = cs :=
  decodeLossyFrom_encode cs []

theorem encode_injective {cs ds : List Char} (h : encode cs = encode ds) : cs = ds := by
  have hd := decode_encode cs
  rw [h, decode_encode] at hd
  exact (Except.ok.inj hd).symm

/-- What is left of a text after the front of it is a text. -/
theorem encode_append_eq_encode : ∀ {front whole : List Char} {rest : List UInt8},
    encode front ++ rest = encode whole → ∃ more, whole = front ++ more ∧ rest = encode more
  | [], whole, rest, h => ⟨whole, rfl, h⟩
  | c :: front, [], rest, h => by
      simp only [encode_cons, encode_nil, List.append_eq_nil_iff] at h
      exact absurd h.1.1 String.utf8EncodeChar_ne_nil
  | c :: front, d :: whole, rest, h => by
      obtain ⟨lead, tail, hd, hread⟩ := exists_front_encodeChar d
      rw [encode_cons, encode_cons, List.append_assoc, hd, List.cons_append] at h
      have hfront := front_of_encodeChar h.symm
      have hfront' := hread (encode whole)
      obtain ⟨hcode, htail⟩ := Prod.mk.inj (Except.ok.inj (hfront.symm.trans hfront'))
      obtain ⟨more, rfl, rfl⟩ := encode_append_eq_encode htail
      have hcd : c = d := by rw [← Char.ofNat_toNat c, hcode, Char.ofNat_toNat]
      exact ⟨more, by rw [hcd, List.cons_append], rfl⟩

theorem isValid_iff {bytes : List UInt8} : isValid bytes = true ↔ ∃ cs, bytes = encode cs := by
  unfold isValid
  constructor
  · intro h
    split at h
    · rename_i cs hd
      exact ⟨cs, decode_eq_ok_iff.mp hd⟩
    · cases h
  · rintro ⟨cs, rfl⟩
    rw [decode_encode]

theorem encode_eq_nil {cs : List Char} (h : encode cs = []) : cs = [] :=
  encode_injective h

/-! ## Boundaries -/

/-- A place between two characters of a byte sequence, or at one of its ends. -/
def IsBoundary (bytes : List UInt8) (k : Nat) : Prop :=
  ∃ before after : List Char, bytes = encode before ++ encode after ∧ k = (encode before).length

theorem IsBoundary.le_length {bytes : List UInt8} {k : Nat} (h : IsBoundary bytes k) :
    k ≤ bytes.length := by
  obtain ⟨before, after, rfl, rfl⟩ := h
  simp

/-- A boundary is a place with a text on both sides, which can be tested. -/
theorem isBoundary_iff {bytes : List UInt8} {k : Nat} :
    IsBoundary bytes k ↔
      k ≤ bytes.length ∧ isValid (bytes.take k) = true ∧ isValid (bytes.drop k) = true := by
  constructor
  · intro h
    have hk := h.le_length
    obtain ⟨before, after, rfl, rfl⟩ := h
    rw [List.take_left, List.drop_left]
    exact ⟨hk, isValid_iff.mpr ⟨before, rfl⟩, isValid_iff.mpr ⟨after, rfl⟩⟩
  · rintro ⟨hk, hbefore, hafter⟩
    obtain ⟨before, hbefore⟩ := isValid_iff.mp hbefore
    obtain ⟨after, hafter⟩ := isValid_iff.mp hafter
    refine ⟨before, after, ?_, ?_⟩
    · rw [← hbefore, ← hafter, List.take_append_drop]
    · rw [← hbefore, List.length_take, Nat.min_eq_left hk]

instance (bytes : List UInt8) (k : Nat) : Decidable (IsBoundary bytes k) :=
  decidable_of_iff _ isBoundary_iff.symm

/-- Only a text has boundaries. -/
theorem IsBoundary.isValid {bytes : List UInt8} {k : Nat} (h : IsBoundary bytes k) :
    isValid bytes = true := by
  obtain ⟨before, after, rfl, -⟩ := h
  exact isValid_iff.mpr ⟨before ++ after, (encode_append before after).symm⟩

theorem isBoundary_zero {bytes : List UInt8} (h : isValid bytes = true) : IsBoundary bytes 0 := by
  obtain ⟨cs, rfl⟩ := isValid_iff.mp h
  exact ⟨[], cs, rfl, rfl⟩

theorem isBoundary_length {bytes : List UInt8} (h : isValid bytes = true) :
    IsBoundary bytes bytes.length := by
  obtain ⟨cs, rfl⟩ := isValid_iff.mp h
  exact ⟨cs, [], by simp, rfl⟩

/-- Between two boundaries stands the encoding of a text. -/
theorem IsBoundary.exists_encode {bytes : List UInt8} {i j : Nat} (hi : IsBoundary bytes i)
    (hj : IsBoundary bytes j) (hij : i ≤ j) : ∃ cs, slice bytes i j = encode cs := by
  obtain ⟨a, b, rfl, rfl⟩ := hi
  obtain ⟨c, d, h, rfl⟩ := hj
  rw [← encode_append, ← encode_append] at h
  -- Both ends cut the same text, so the text before the first is a piece of that before the second.
  have htext := encode_injective h
  rcases List.append_eq_append_iff.mp htext with ⟨m, rfl, rfl⟩ | ⟨m, rfl, rfl⟩
  · refine ⟨m, ?_⟩
    have hcut : (encode a).length + (encode m).length = (encode a ++ encode m).length := by simp
    simp only [slice, encode_append, List.length_append]
    rw [hcut, ← List.append_assoc, List.take_left, List.drop_left]
  · have hm : m = [] := by
      apply encode_eq_nil
      apply List.eq_nil_of_length_eq_zero
      simp only [encode_append, List.length_append] at hij
      omega
    subst hm
    exact ⟨[], by simp [slice]⟩

theorem IsBoundary.exists_decode {bytes : List UInt8} {i j : Nat} (hi : IsBoundary bytes i)
    (hj : IsBoundary bytes j) (hij : i ≤ j) : ∃ cs, decode (slice bytes i j) = .ok cs := by
  obtain ⟨cs, hcs⟩ := hi.exists_encode hj hij
  exact ⟨cs, decode_eq_ok_iff.mpr hcs⟩

/-- A byte of ASCII is found only in its own character: every byte of a character of more than one
byte lies beyond ASCII. -/
theorem toNat_eq_of_mem_encodeChar {c : Char} {b : UInt8} (h : b ∈ String.utf8EncodeChar c)
    (hb : b.toNat < 0x80) : c.toNat = b.toNat := by
  by_cases h1 : c.toNat ≤ 0x7f
  · rw [encodeChar_one h1] at h
    rw [List.mem_singleton.mp h, toNat_byte (by omega)]
  by_cases h2 : c.toNat ≤ 0x7ff
  · rw [encodeChar_two (by omega) h2] at h
    simp only [List.mem_cons, List.not_mem_nil, or_false] at h
    rcases h with rfl | rfl <;> rw [toNat_byte (by omega)] at hb <;> omega
  by_cases h3 : c.toNat ≤ 0xffff
  · rw [encodeChar_three (by omega) h3] at h
    simp only [List.mem_cons, List.not_mem_nil, or_false] at h
    rcases h with rfl | rfl | rfl <;> rw [toNat_byte (by omega)] at hb <;> omega
  · rw [encodeChar_four (by omega)] at h
    simp only [List.mem_cons, List.not_mem_nil, or_false] at h
    rcases h with rfl | rfl | rfl | rfl <;> rw [toNat_byte (by omega)] at hb <;> omega

theorem encodeChar_ascii {c : Char} {k : Nat} {b : UInt8}
    (h : (String.utf8EncodeChar c)[k]? = some b) (hb : b.toNat < 0x80) :
    (String.utf8EncodeChar c).length = 1 := by
  have hc := toNat_eq_of_mem_encodeChar (List.mem_of_getElem? h) hb
  rw [encodeChar_one (by omega)]
  rfl

/-- The bytes of a text hold a byte of ASCII only where the text holds its character. -/
theorem exists_char_of_mem_encode {cs : List Char} {b : UInt8} (h : b ∈ encode cs)
    (hb : b.toNat < 0x80) : ∃ c ∈ cs, c.toNat = b.toNat := by
  obtain ⟨c, hc, hmem⟩ := List.mem_flatMap.mp h
  exact ⟨c, hc, toNat_eq_of_mem_encodeChar hmem hb⟩

theorem isBoundary_cons {c : Char} {bytes : List UInt8} {k : Nat} (h : IsBoundary bytes k) :
    IsBoundary (String.utf8EncodeChar c ++ bytes) ((String.utf8EncodeChar c).length + k) := by
  obtain ⟨before, after, rfl, rfl⟩ := h
  exact ⟨c :: before, after, by simp, by simp⟩

/-- The place after an ASCII byte is a boundary. -/
theorem isBoundary_succ_of_ascii : ∀ {cs : List Char} {k : Nat} {b : UInt8},
    (encode cs)[k]? = some b → b.toNat < 0x80 → IsBoundary (encode cs) (k + 1)
  | [], k, b, h, _ => by simp at h
  | c :: cs, k, b, h, hb => by
      rw [encode_cons] at h ⊢
      by_cases hk : k < (String.utf8EncodeChar c).length
      · rw [List.getElem?_append_left hk] at h
        have hone := encodeChar_ascii h hb
        refine ⟨[c], cs, by simp, ?_⟩
        simp only [encode_cons, encode_nil, List.append_nil]
        omega
      · rw [List.getElem?_append_right (by omega)] at h
        have hrest := isBoundary_cons (c := c) (isBoundary_succ_of_ascii h hb)
        rwa [show (String.utf8EncodeChar c).length + (k - (String.utf8EncodeChar c).length + 1)
          = k + 1 by omega] at hrest

end CodeChallenges.Text.Utf8
