import CodeChallenges.LineMap
import CodeChallenges.Proofs.Challenge.Identity
import CodeChallenges.Proofs.Json
/-!
# One record a line

The records of challenges are bytes in which every line feed ends one record.  The text of a record
holds no control character, whatever the strings of the challenge hold, and no longer character has
the byte of a line feed in it (`Json.newlineByte_not_mem_encode_render`).  So the bytes fall apart at their line
feeds into the records, each is read back as the record of its challenge, and a record tells every
field of the challenge (`toJson_inj`): from the bytes follow the challenges
(`ndjson_reads_back`).
-/

namespace CodeChallenges

/-! ## Ended lines -/

section

variable {ending : UInt8} {lines : List (List UInt8)}

/-- Ended lines fall apart at their ends; behind the last there is nothing. -/
theorem splitOn_endedLines (h : ∀ line ∈ lines, ending ∉ line) :
    (lines.flatMap (· ++ [ending])).splitOn ending = lines ++ [[]] := by
  induction lines with
  | nil => exact List.splitOn_eq_singleton List.not_mem_nil
  | cons line lines ih =>
      rw [List.flatMap_cons, List.append_assoc, List.singleton_append,
        List.splitOn_append_cons_self_of_not_mem (h line List.mem_cons_self),
        ih fun other hother => h other (List.mem_cons_of_mem _ hother)]
      rfl

theorem count_endedLines (h : ∀ line ∈ lines, ending ∉ line) :
    (lines.flatMap (· ++ [ending])).count ending = lines.length := by
  induction lines with
  | nil => rfl
  | cons line lines ih =>
      rw [List.flatMap_cons, List.count_append, List.count_append,
        List.count_eq_zero.mpr (h line List.mem_cons_self), List.count_singleton_self,
        ih fun other hother => h other (List.mem_cons_of_mem _ hother), List.length_cons]
      omega

end

namespace Json

/-- The text of a value is one line, whatever stands in its strings. -/
theorem newlineByte_not_mem_encode_render (v : Json) :
    newlineByte ∉ Text.Utf8.encode v.render := by
  intro h
  obtain ⟨d, hd, hnumber⟩ := Text.Utf8.exists_char_of_mem_encode h (by decide)
  have hprinted : 0x20 ≤ d.toNat := printed_render v d hd
  rw [hnumber] at hprinted
  exact absurd hprinted (by decide)

/-- Texts of values, each ended, are ended lines. -/
theorem encode_flatMap_render (values : List Json) :
    Text.Utf8.encode (values.flatMap fun v => v.render ++ ['\n']) =
      values.flatMap fun v => Text.Utf8.encode v.render ++ [newlineByte] := by
  induction values with
  | nil => rfl
  | cons v values ih =>
      rw [List.flatMap_cons, Text.Utf8.encode_append, Text.Utf8.encode_append, ih, List.flatMap_cons]
      rfl

end Json

namespace Challenge

/-! ## Records -/

/-- A record tells every field of its challenge. -/
theorem toJson_inj {c d : Challenge} : c.toJson = d.toJson ↔ c = d := by
  constructor
  · intro h
    obtain ⟨id, content, chunkType, language, filePath, startLine, endLine, startByte, endByte,
      name, ranges⟩ := c
    obtain ⟨id', content', chunkType', language', filePath', startLine', endLine', startByte',
      endByte', name', ranges'⟩ := d
    simp only [toJson, Json.obj.injEq, List.cons.injEq, Prod.mk.injEq, Json.str.injEq,
      Json.int.injEq, Json.arr.injEq, true_and, and_true, Json.ofOption_inj, ChunkType.tag_inj] at h
    obtain ⟨rfl, rfl, rfl, rfl, rfl, rfl, rfl, rfl, rfl, rfl, hranges⟩ := h
    have hpair (r r' : Int × Int)
        (heq : Json.arr [.int r.1, .int r.2] = .arr [.int r'.1, .int r'.2]) : r = r' := by
      simp only [Json.arr.injEq, List.cons.injEq, Json.int.injEq, and_true] at heq
      exact Prod.ext heq.1 heq.2
    rw [List.map_injective_iff.mpr (fun r r' => hpair r r') hranges]
  · rintro rfl
    rfl

/-- The bytes of the record of a challenge. -/
def record (c : Challenge) : List UInt8 :=
  Text.Utf8.encode c.toJson.render

/-- The bytes of the records of challenges. -/
def ndjsonBytes (challenges : List Challenge) : List UInt8 :=
  Text.Utf8.encode (ndjson challenges).toList

theorem newlineByte_not_mem_of_mem_map {challenges : List Challenge} :
    ∀ line ∈ challenges.map record, newlineByte ∉ line := by
  intro line hline
  obtain ⟨c, -, rfl⟩ := List.mem_map.mp hline
  exact Json.newlineByte_not_mem_encode_render c.toJson

/-- The records are ended lines. -/
theorem ndjsonBytes_eq (challenges : List Challenge) :
    ndjsonBytes challenges = (challenges.map record).flatMap (· ++ [newlineByte]) := by
  have hlines := Json.encode_flatMap_render (challenges.map toJson)
  rw [List.flatMap_map, List.flatMap_map] at hlines
  rw [ndjsonBytes, ndjson, String.toList_ofList, hlines, List.flatMap_map]
  rfl

theorem map_ofBytes?_record (challenges : List Challenge) :
    (challenges.map record).map Json.ofBytes? = challenges.map fun c => some c.toJson := by
  rw [List.map_map]
  exact List.map_congr_left fun c _ => Json.ofBytes?_encode_render c.toJson

/-- **Records are read back**: the bytes of the records of challenges hold one line feed for each
challenge, and each ends a record.  Cut at the line feeds, and every record read as JSON, they give
the challenges as records, in order, whatever control characters, quotes, backslashes, line feeds or
characters of any plane their strings hold.  So only equal lists of challenges are written alike. -/
theorem ndjson_reads_back (challenges : List Challenge) :
    (ndjsonBytes challenges).count newlineByte = challenges.length ∧
    (∃ records : List (List UInt8),
      ndjsonBytes challenges = records.flatMap (· ++ [newlineByte]) ∧
      (ndjsonBytes challenges).splitOn newlineByte = records ++ [[]] ∧
      records.map Json.ofBytes? = challenges.map fun c => some c.toJson) ∧
    ∀ others, ndjsonBytes others = ndjsonBytes challenges ↔ others = challenges := by
  have hsplit (cs : List Challenge) :
      (ndjsonBytes cs).splitOn newlineByte = cs.map record ++ [[]] := by
    rw [ndjsonBytes_eq]
    exact splitOn_endedLines newlineByte_not_mem_of_mem_map
  refine ⟨?_, ⟨challenges.map record, ndjsonBytes_eq challenges, hsplit challenges,
    map_ofBytes?_record challenges⟩, ?_⟩
  · rw [ndjsonBytes_eq, count_endedLines newlineByte_not_mem_of_mem_map, List.length_map]
  · refine fun others => ⟨fun heq => ?_, congrArg ndjsonBytes⟩
    -- Equal bytes are cut into equal records, and these are read as equal values.
    have hrecords : others.map record = challenges.map record := by
      have hcut := hsplit others
      rw [heq, hsplit challenges] at hcut
      exact (List.append_cancel_right hcut).symm
    have hread := map_ofBytes?_record others
    rw [hrecords, map_ofBytes?_record challenges] at hread
    have hinjective : Function.Injective fun c : Challenge => some c.toJson :=
      fun c d h => toJson_inj.mp (Option.some.inj h)
    exact (List.map_injective_iff.mpr hinjective hread).symm

end Challenge

end CodeChallenges
