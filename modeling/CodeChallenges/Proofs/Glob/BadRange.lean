import CodeChallenges.Glob.Pattern
import CodeChallenges.Proofs.Outcome
/-!
# Where a bad range comes from

A text is refused for a bad range only if it holds one: a hyphen between two characters of which the
second comes first (`writtenIn_of_ofPattern`).  On its way from the text to the classes of its
pieces nothing is written that was not there, but for the segments of the normal form, which hold no
hyphen.
-/

namespace CodeChallenges

/-- The pieces of a text between separators stand in the text, the first of them at its front. -/
theorem Text.infix_of_mem_splitOnChar (sep : Char) (cs : List Char) :
    (∀ first rest, splitOnChar sep cs = first :: rest → first <+: cs) ∧
      ∀ piece ∈ splitOnChar sep cs, piece <:+: cs := by
  induction cs with
  | nil =>
      constructor
      · intro first rest h
        cases h
        exact List.prefix_refl []
      · intro piece h
        cases List.mem_singleton.mp h
        exact List.infix_refl []
  | cons c cs ih =>
      obtain ⟨hfirst, hpieces⟩ := ih
      have hstep : splitOnChar sep (c :: cs) = addToPieces sep c (splitOnChar sep cs) := rfl
      rw [hstep]
      unfold addToPieces
      split
      · constructor
        · intro first rest h
          cases h
          exact List.nil_prefix
        · intro piece h
          rcases List.mem_cons.mp h with rfl | h
          · exact List.nil_infix
          · exact List.infix_cons (hpieces piece h)
      · split
        · constructor
          · intro first rest h
            cases h
            exact List.prefix_append [c] cs
          · intro piece h
            cases List.mem_singleton.mp h
            exact (List.prefix_append [c] cs).isInfix
        · rename_i front rest hsplit
          have hfront : c :: front <+: c :: cs :=
            List.cons_prefix_cons.mpr ⟨rfl, hfirst front rest hsplit⟩
          constructor
          · intro first rest' h
            cases h
            exact hfront
          · intro piece h
            rcases List.mem_cons.mp h with rfl | h
            · exact hfront.isInfix
            · refine List.infix_cons (hpieces piece ?_)
              rw [hsplit]
              exact List.mem_cons_of_mem front h

namespace Glob

/-! ## Ranges in classes -/

/-- A text holds a range whose ends are in the wrong order. -/
def BadRange.WrittenIn (range : BadRange) (text : List Char) : Prop :=
  range.last < range.first ∧ [range.first, '-', range.last] <:+: text

theorem BadRange.WrittenIn.mono {range : BadRange} {part text : List Char}
    (h : range.WrittenIn part) (hpart : part <:+: text) : range.WrittenIn text :=
  ⟨h.1, h.2.trans hpart⟩

/-- No range stands in a segment for any directories. -/
theorem BadRange.not_writtenIn_anyDirs (range : BadRange) : ¬ range.WrittenIn anyDirs := by
  intro h
  have hhyphen : '-' ∈ anyDirs := h.2.subset (List.mem_cons_of_mem _ List.mem_cons_self)
  exact absurd hhyphen (by decide)

/-- A class is refused for a range that it holds. -/
theorem writtenIn_of_classRanges {position : Nat} {body : List Char} {range : BadRange}
    (h : faultOf (classRanges position body) = some range) : range.WrittenIn body := by
  fun_induction classRanges position body with
  | case1 position => cases h
  | case2 position c => cases h
  | case3 position c d => cases h
  | case4 position c d rest hlt =>
      cases h
      exact ⟨hlt, (List.prefix_append [c, '-', d] rest).isInfix⟩
  | case5 position c d rest hle ih =>
      rw [faultOf_bind_of_none fun ranges => rfl] at h
      exact (ih h).mono (List.suffix_append [c, '-', d] rest).isInfix
  | case6 position c rest _ _ _ ih =>
      rw [faultOf_bind_of_none fun ranges => rfl] at h
      exact (ih h).mono (List.suffix_cons c rest).isInfix

/-- Pieces are refused for a range in one of their classes. -/
theorem exists_class_of_regexFrom {position : Nat} {pieces : List Piece} {range : BadRange}
    (h : faultOf (regexFrom position pieces) = some range) :
    ∃ negated body, Piece.charClass negated body ∈ pieces ∧ range.WrittenIn body := by
  induction pieces generalizing position with
  | nil => cases h
  | cons piece pieces ih =>
      rw [regexFrom, faultOf_bind fun first _ => faultOf_bind_of_none fun rest => rfl] at h
      rcases Option.or_eq_some_iff.mp h with h | ⟨-, h⟩
      · cases piece with
        | charClass negated body =>
            rw [Piece.regex, faultOf_bind_of_none fun ranges => rfl] at h
            exact ⟨negated, body, List.mem_cons_self, writtenIn_of_classRanges h⟩
        | _ => cases h
      · obtain ⟨negated, body, hmem, hwritten⟩ := ih h
        exact ⟨negated, body, List.mem_cons_of_mem piece hmem, hwritten⟩

/-! ## Classes in segments -/

/-- The text of a class stands at the front, and what follows the class at the end. -/
theorem prefix_suffix_of_classBody? {cs body after : List Char}
    (h : classBody? cs = some (body, after)) : body <+: cs ∧ after <:+ cs := by
  unfold classBody? at h
  split at h
  · cases h
  · rename_i c rest
    split at h
    · cases h
    · rename_i closing after' hclosing
      obtain ⟨rfl, rfl⟩ := Prod.mk.inj (Option.some.inj h)
      have hwhole := List.takeWhile_append_dropWhile (p := (· != ']')) (l := rest)
      rw [hclosing] at hwhole
      constructor
      · exact List.cons_prefix_cons.mpr ⟨rfl, ⟨_, hwhole⟩⟩
      · exact ⟨c :: rest.takeWhile (· != ']') ++ [closing], by simp [hwhole]⟩

theorem classSign_suffix (cs : List Char) : (classSign cs).2 <:+ cs := by
  unfold classSign
  split
  · exact List.suffix_cons ..
  · exact List.suffix_cons ..
  · exact List.suffix_refl cs

/-- A piece read after another is that one or was read before. -/
theorem eq_or_exists_of_mem_read {read : Except Stop (List Piece)} {front : Piece}
    {pieces : List Piece} (h : (do let later ← read; return front :: later) = .ok pieces)
    {piece : Piece} (hpiece : piece ∈ pieces) :
    piece = front ∨ ∃ later, read = .ok later ∧ piece ∈ later := by
  obtain ⟨later, hlater, h⟩ := bind_eq_ok_iff.mp h
  rw [← pure_eq_ok_iff.mp h, List.mem_cons] at hpiece
  exact hpiece.imp_right fun hmem => ⟨later, hlater, hmem⟩

/-- A class read after another piece was read before it. -/
theorem exists_later_of_class_mem {read : Except Stop (List Piece)} {front : Piece}
    {pieces : List Piece} (h : (do let later ← read; return front :: later) = .ok pieces)
    {negated : Bool} {body : List Char} (hclass : Piece.charClass negated body ∈ pieces)
    (hfront : Piece.charClass negated body ≠ front) :
    ∃ later, read = .ok later ∧ Piece.charClass negated body ∈ later :=
  (eq_or_exists_of_mem_read h hclass).resolve_left hfront

/-- The classes of a segment stand in it. -/
theorem infix_of_mem_segmentPieces {d : Dialect} {segment : List Char} {pieces : List Piece}
    (h : segmentPieces d segment = .ok pieces) {negated : Bool} {body : List Char}
    (hclass : Piece.charClass negated body ∈ pieces) : body <:+: segment := by
  fun_induction segmentPieces d segment generalizing pieces with
  | case1 =>
      cases h
      cases hclass
  | case2 => cases h
  | case3 c cs ih =>
      obtain ⟨later, hlater, hmem⟩ := exists_later_of_class_mem h hclass nofun
      exact (ih hlater hmem).trans (List.suffix_append ['\\', c] cs).isInfix
  | case4 cs ih =>
      obtain ⟨later, hlater, hmem⟩ := exists_later_of_class_mem h hclass nofun
      exact List.infix_cons (ih hlater hmem)
  | case5 cs ih =>
      obtain ⟨later, hlater, hmem⟩ := exists_later_of_class_mem h hclass nofun
      exact List.infix_cons (ih hlater hmem)
  | case6 cs body' after hbody ih =>
      obtain ⟨hfront, hsuffix⟩ := prefix_suffix_of_classBody? hbody
      have hsign := classSign_suffix cs
      rcases eq_or_exists_of_mem_read h hclass with hhead | ⟨later, hlater, hmem⟩
      · cases hhead
        exact List.infix_cons (hfront.isInfix.trans hsign.isInfix)
      · exact List.infix_cons ((ih hlater hmem).trans (hsuffix.trans hsign).isInfix)
  | case7 cs _ hplain ih =>
      subst hplain
      obtain ⟨later, hlater, hmem⟩ := exists_later_of_class_mem h hclass nofun
      exact List.infix_cons (ih hlater hmem)
  | case8 => cases h
  | case9 c cs _ _ _ _ _ ih =>
      obtain ⟨later, hlater, hmem⟩ := exists_later_of_class_mem h hclass nofun
      exact List.infix_cons (ih hlater hmem)

/-! ## Classes in the normal form -/

theorem mergeAnyDirs_subset (segments : List (List Char)) : mergeAnyDirs segments ⊆ segments := by
  fun_induction mergeAnyDirs segments with
  | case1 a b rest hboth ih =>
      intro segment h
      exact List.mem_cons_of_mem a (ih h)
  | case2 a b rest hboth ih => exact List.cons_subset_cons a ih
  | case3 segments => exact List.Subset.refl segments

/-- The segments of the normal form are segments of the text, but for those for any directories. -/
theorem eq_or_mem_of_mem_completeSegments {raw : List (List Char)} {segment : List Char}
    (h : segment ∈ completeSegments raw) : segment = anyDirs ∨ segment ∈ raw := by
  unfold completeSegments at h
  extract_lets rooted at h
  have hrooted : segment ∈ rooted → segment = anyDirs ∨ segment ∈ raw := by
    intro hmem
    unfold rooted at hmem
    split at hmem
    · exact .inr (List.mem_cons_of_mem [] hmem)
    · split at hmem
      · exact .inr hmem
      · exact List.mem_cons.mp hmem
    · split at hmem
      · exact .inr hmem
      · exact List.mem_cons.mp hmem
    · exact .inr hmem
  split at h
  · rename_i before hbefore
    rw [List.mem_reverse] at h
    rcases List.mem_cons.mp h with rfl | hmem
    · exact .inl rfl
    · refine hrooted (List.mem_reverse.mp ?_)
      rw [hbefore]
      exact List.mem_cons_of_mem [] hmem
  · exact hrooted h

theorem belowPiece_ne_charClass (d : Dialect) (forDirectory negated : Bool) (body : List Char) :
    Piece.charClass negated body ≠ belowPiece d forDirectory := by
  unfold belowPiece
  split
  · nofun
  · nofun

theorem nameEndPiece_ne_charClass (d : Dialect) (segment : List Char) (negated : Bool)
    (body : List Char) : Piece.charClass negated body ≠ nameEndPiece d segment := by
  unfold nameEndPiece
  cases d with
  | plain =>
      dsimp only
      split
      · nofun
      · nofun
  | ignoreFile => nofun

theorem infix_of_mem_namePieces {d : Dialect} {segment : List Char} {pieces : List Piece}
    (h : namePieces d segment = .ok pieces) {negated : Bool} {body : List Char}
    (hclass : Piece.charClass negated body ∈ pieces) : body <:+: segment := by
  unfold namePieces at h
  split at h
  · cases h
    cases List.mem_singleton.mp hclass
  · exact infix_of_mem_segmentPieces h hclass

theorem exists_infix_of_mem_laterPieces {d : Dialect} {forDirectory needSlash : Bool}
    {segments : List (List Char)} {pieces : List Piece}
    (h : laterPieces d forDirectory needSlash segments = .ok pieces) {negated : Bool}
    {body : List Char} (hclass : Piece.charClass negated body ∈ pieces) :
    ∃ segment ∈ segments, body <:+: segment := by
  induction segments generalizing needSlash pieces with
  | nil =>
      cases h
      cases hclass
  | cons segment rest ih =>
      have hlater : ∀ {needSlash : Bool} {later : List Piece},
          laterPieces d forDirectory needSlash rest = .ok later →
          Piece.charClass negated body ∈ later → ∃ s ∈ segment :: rest, body <:+: s := by
        intro needSlash later hok hmem
        obtain ⟨s, hs, hinside⟩ := ih hok hmem
        exact ⟨s, List.mem_cons_of_mem segment hs, hinside⟩
      unfold laterPieces at h
      split at h
      · split at h
        · cases h
          exact absurd (List.mem_singleton.mp hclass) (belowPiece_ne_charClass d forDirectory _ _)
        · obtain ⟨later, hok, hmem⟩ := exists_later_of_class_mem h hclass nofun
          exact hlater hok hmem
      · obtain ⟨name, hname, h⟩ := bind_eq_ok_iff.mp h
        obtain ⟨later, hok, h⟩ := bind_eq_ok_iff.mp h
        rw [← pure_eq_ok_iff.mp h] at hclass
        rcases List.mem_append.mp hclass with hclass | hmem
        · rcases List.mem_append.mp hclass with hclass | hend
          · rcases List.mem_append.mp hclass with hslash | hmem
            · split at hslash
              · cases List.mem_singleton.mp hslash
              · cases hslash
            · exact ⟨segment, List.mem_cons_self, infix_of_mem_namePieces hname hmem⟩
          · split at hend
            · exact absurd (List.mem_singleton.mp hend) (nameEndPiece_ne_charClass d segment _ _)
            · cases hend
        · exact hlater hok hmem

/-- The classes of completed segments stand in one of them. -/
theorem exists_infix_of_mem_piecesOf {d : Dialect} {forDirectory : Bool}
    {segments : List (List Char)} {pieces : List Piece}
    (h : piecesOf d forDirectory segments = .ok pieces) {negated : Bool} {body : List Char}
    (hclass : Piece.charClass negated body ∈ pieces) : ∃ segment ∈ segments, body <:+: segment := by
  unfold piecesOf at h
  split at h
  · cases h
    have hsingle := List.mem_singleton.mp hclass
    split at hsingle
    · exact absurd hsingle (belowPiece_ne_charClass d true _ _)
    · cases hsingle
  · split at h
    · cases h
      cases List.mem_singleton.mp hclass
    · split at h
      · cases h
        exact absurd (List.mem_singleton.mp hclass) (belowPiece_ne_charClass d forDirectory _ _)
      · split at h
        · cases h
          cases hclass
        · rename_i segment rest _ _ _
          split at h
          · obtain ⟨later, hok, hmem⟩ := exists_later_of_class_mem h hclass nofun
            obtain ⟨s, hs, hinside⟩ := exists_infix_of_mem_laterPieces hok hmem
            exact ⟨s, List.mem_cons_of_mem segment hs, hinside⟩
          · obtain ⟨later, hok, hmem⟩ := exists_later_of_class_mem h hclass nofun
            exact exists_infix_of_mem_laterPieces hok hmem

/-! ## Texts -/

theorem readBody_ne_badRange {d : Dialect} {pattern : String} {body : List Char} {range : BadRange}
    {written : List Char} : faultOf (readBody d pattern body) ≠ some (.badRange range written) := by
  unfold readBody
  dsimp only
  split
  · nofun
  · split <;> nofun

/-- A class that is read from a body and holds a bad range stands in the body with it. -/
theorem writtenIn_of_readBody {d : Dialect} {pattern : String} {body : List Char}
    {pieces : List Piece} (h : readBody d pattern body = .ok (some pieces)) {negated : Bool}
    {inner : List Char} (hclass : Piece.charClass negated inner ∈ pieces) {range : BadRange}
    (hrange : range.WrittenIn inner) : range.WrittenIn body := by
  unfold readBody at h
  dsimp only at h
  split at h
  · cases h
  · split at h
    · rename_i pieces' hpieces
      cases h
      obtain ⟨segment, hsegment, hinside⟩ := exists_infix_of_mem_piecesOf hpieces hclass
      rcases eq_or_mem_of_mem_completeSegments (mergeAnyDirs_subset _ hsegment) with rfl | hraw
      · exact absurd (hrange.mono hinside) range.not_writtenIn_anyDirs
      · exact hrange.mono (hinside.trans ((Text.infix_of_mem_splitOnChar '/' body).2 segment hraw))
    · cases h
    · cases h

theorem withoutTrailingBlanks_inside (pattern : List Char) :
    withoutTrailingBlanks pattern <:+: pattern := by
  unfold withoutTrailingBlanks
  split
  · exact List.infix_refl pattern
  · have hfront := List.reverse_prefix.mpr
      (List.dropWhile_suffix Text.isBlank (l := pattern.reverse))
    rw [List.reverse_reverse] at hfront
    exact hfront.isInfix

/-- **A text that is refused for a bad range** holds it. -/
theorem writtenIn_of_ofPattern {d : Dialect} {pattern : String} {range : BadRange}
    {written : List Char} (h : faultOf (ofPattern d pattern) = some (.badRange range written)) :
    range.WrittenIn pattern.toList := by
  unfold ofPattern at h
  dsimp only at h
  split at h
  · cases h
  · generalize hbody : (if ((withoutTrailingBlanks pattern.toList).head? != some '!') = true then
      withoutTrailingBlanks pattern.toList
      else (withoutTrailingBlanks pattern.toList).drop 1) = body at h
    have hinside : body <:+: pattern.toList := by
      refine List.IsInfix.trans ?_ (withoutTrailingBlanks_inside pattern.toList)
      rw [← hbody]
      split
      · exact List.infix_refl _
      · exact (List.drop_suffix 1 _).isInfix
    cases hread : readBody d pattern body with
    | error fault =>
        rw [hread] at h
        have hnever : faultOf (readBody d pattern body) ≠ some (.badRange range written) :=
          readBody_ne_badRange
        rw [hread] at hnever
        exact absurd h hnever
    | ok read =>
        rw [hread] at h
        cases read with
        | none => cases h
        | some pieces =>
            dsimp only [bind, Except.bind] at h
            split at h
            · cases h
            · rename_i range' hregex
              cases h
              obtain ⟨negated, inner, hclass, hrange⟩ :=
                exists_class_of_regexFrom (faultOf_eq_some_iff.mpr hregex)
              exact (writtenIn_of_readBody hread hclass hrange).mono hinside

end Glob

end CodeChallenges
