import CodeChallenges.Proofs.Challenge
import CodeChallenges.Proofs.Text.Decimal
import Std.Data.String.ToInt
/-!
# The text behind the identity of a challenge

The key text of a challenge is its path, the two ends of its byte range and its kind, with two
colons between them.  Paths may hold colons and digits themselves, so nothing can be read from the
front.  But a number and a tag hold no colon, and so the text is read from its end: what follows the
last colon is the tag, what follows the last colon before it is the end of the range, and so on
(`append_field_inj`).  What is left is the path, whatever it holds (`idText_inj`).
-/

namespace CodeChallenges

/-! ## Fields without colons -/

/-- What follows the last colon of a text is one field of it. -/
theorem append_field_inj {front front' field field' : List Char} (h : ':' ∉ field)
    (h' : ':' ∉ field') :
    front ++ ':' :: field = front' ++ ':' :: field' ↔ front = front' ∧ field = field' := by
  constructor
  · intro heq
    -- If one front were longer, a colon of that text would stand in the field of the other.
    rcases List.append_eq_append_iff.mp heq with ⟨more, rfl, hmore⟩ | ⟨more, rfl, hmore⟩
    · cases more with
      | nil => exact ⟨(List.append_nil front).symm, (List.cons.inj hmore).2⟩
      | cons c more =>
          obtain ⟨-, rfl⟩ := List.cons.inj hmore
          exact absurd (List.mem_append_right more List.mem_cons_self) h
    · cases more with
      | nil => exact ⟨List.append_nil front', (List.cons.inj hmore).2.symm⟩
      | cons c more =>
          obtain ⟨-, rfl⟩ := List.cons.inj hmore
          exact absurd (List.mem_append_right more List.mem_cons_self) h'
  · rintro ⟨rfl, rfl⟩
    rfl

/-- The last field of a text is separated by two colons from what comes before it. -/
theorem append_separated_inj {front front' field field' : List Char} (h : ':' ∉ field)
    (h' : ':' ∉ field') :
    front ++ ':' :: ':' :: field = front' ++ ':' :: ':' :: field' ↔
      front = front' ∧ field = field' := by
  have hfront := @append_field_inj (front ++ [':']) (front' ++ [':']) field field' h h'
  rw [List.append_assoc, List.append_assoc, List.append_left_inj] at hfront
  exact hfront

/-- A number is written without a colon. -/
theorem colon_not_mem_repr (n : Int) : ':' ∉ (Int.repr n).toList := by
  intro h
  rcases Text.mem_repr h with hsign | hdigit
  · exact absurd hsign (by decide)
  · exact absurd hdigit (by decide)

namespace ChunkType

/-- A kind is read back from its tag. -/
theorem ofTag?_tag (t : ChunkType) : ofTag? t.tag = some t := by
  cases t <;> decide

theorem tag_inj {t t' : ChunkType} : t.tag = t'.tag ↔ t = t' := by
  constructor
  · intro heq
    have hread := ofTag?_tag t
    rw [heq, ofTag?_tag t'] at hread
    exact (Option.some.inj hread).symm
  · rintro rfl
    rfl

/-- A tag holds no colon. -/
theorem colon_not_mem_tag (t : ChunkType) : ':' ∉ t.tag.toList := by
  cases t <;> decide

end ChunkType

namespace Challenge

/-! ## The key text -/

/-- The characters of a key text, field after field from the end. -/
theorem toList_idText (path : String) (start stop : Int) (chunkType : ChunkType) :
    (idText path start stop chunkType).toList =
      ((path.toList ++ ':' :: ':' :: start.repr.toList) ++ ':' :: ':' :: stop.repr.toList) ++
        ':' :: ':' :: chunkType.tag.toList := by
  have hcolons : ("::" : String).toList = [':', ':'] := by decide
  simp only [idText, toString, String.toList_append, hcolons, List.append_assoc,
    List.cons_append, List.nil_append]

/-- **The key text** says which path, which byte range and which kind it was made of. -/
theorem idText_inj {path path' : String} {start start' stop stop' : Int}
    {chunkType chunkType' : ChunkType} :
    idText path start stop chunkType = idText path' start' stop' chunkType' ↔
      path = path' ∧ start = start' ∧ stop = stop' ∧ chunkType = chunkType' := by
  rw [← String.toList_inj, toList_idText, toList_idText,
    append_separated_inj chunkType.colon_not_mem_tag chunkType'.colon_not_mem_tag,
    append_separated_inj (colon_not_mem_repr stop) (colon_not_mem_repr stop'),
    append_separated_inj (colon_not_mem_repr start) (colon_not_mem_repr start'),
    String.toList_inj, String.toList_inj, String.toList_inj, String.toList_inj,
    Int.repr_inj, Int.repr_inj, ChunkType.tag_inj, and_assoc, and_assoc]

/-- The bytes that are digested for an identity. -/
def idBytes (path : String) (start stop : Int) (chunkType : ChunkType) : List UInt8 :=
  Text.Utf8.encode (idText path start stop chunkType).toList

theorem idBytes_inj {path path' : String} {start start' stop stop' : Int}
    {chunkType chunkType' : ChunkType} :
    idBytes path start stop chunkType = idBytes path' start' stop' chunkType' ↔
      path = path' ∧ start = start' ∧ stop = stop' ∧ chunkType = chunkType' := by
  rw [← idText_inj, ← String.toList_inj]
  exact ⟨Text.Utf8.encode_injective, congrArg Text.Utf8.encode⟩

/-- The bytes whose digest is the identity of a challenge. -/
def ownBytes (c : Challenge) : List UInt8 :=
  idBytes c.filePath c.startByte c.endByte c.chunkType

/-- The identity of a challenge of a chunk is the digest of its own path, range and kind. -/
theorem ofChunk_id {chunk : Chunk} {comments : List Span} {o : Options} {source : List UInt8}
    {made : Challenge} (h : ofChunk chunk comments o source = .ok made) :
    made.id = Sha256.hexDigest made.ownBytes := by
  obtain ⟨content, -, h⟩ := bind_eq_ok_iff.mp h
  obtain ⟨ranges, -, h⟩ := bind_eq_ok_iff.mp h
  rw [← pure_eq_ok_iff.mp h]
  rfl

end Challenge

end CodeChallenges
