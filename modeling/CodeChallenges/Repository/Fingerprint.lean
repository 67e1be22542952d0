import CodeChallenges.Repository.Scan
import CodeChallenges.Sha256
/-!
The fingerprint of a repository: a digest over the chosen files.  Each path and each content is
preceded by its length in eight bytes, so that the stream of bytes can be read in one way only.
-/

namespace CodeChallenges.Repository

/-- Bytes after their number. -/
def frame (bytes : List UInt8) : List UInt8 :=
  Sha256.bigEndian 8 bytes.length ++ bytes

/-- The stream of bytes of paths with contents. -/
def fingerprintStream (files : List (List UInt8 × List UInt8)) : List UInt8 :=
  files.flatMap fun f => frame f.1 ++ frame f.2

/-- The chosen files with their contents; what cannot be read counts as empty. -/
def Scanner.contents (sc : Scanner) (found : List (String × Language)) :
    List (List UInt8 × List UInt8) :=
  found.map fun f =>
    (Text.Utf8.encode f.1.toList, (sc.world.snapshot.read? sc.root f.1).getD [])

/-- Why there is no fingerprint. -/
inductive FingerprintFault where
  | cannotOpen (fault : OpenFault)
  | cannotList (fault : ListFault)

/-- The fingerprint of the files under a root. -/
def fingerprint (w : World) (r : Registry) (root : String) (o : Options) :
    Except FingerprintFault String := do
  let (sc, _) ← (Scanner.open w root o none).mapError .cannotOpen
  let outcome ← (sc.run r none).mapError .cannotList
  return Sha256.hexDigest (fingerprintStream (sc.contents outcome.found))

end CodeChallenges.Repository
