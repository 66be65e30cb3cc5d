import Countersign.Digest.Sha256

/-!
# Keyed digests

HMAC with SHA-256: the key, brought to the length of a block, enters an inner
and an outer digest under two different masks.
-/

set_option autoImplicit false

namespace Countersign.Hmac

/-- The key as one block: a longer key is replaced by its digest, a shorter one filled with zeros. -/
def blockKey (key : Bytes) : Bytes :=
  let k := if 64 < key.length then Sha256.digest key else key
  k ++ List.replicate (64 - k.length) 0

def tag (key message : Bytes) : Bytes :=
  let k := blockKey key
  Sha256.digest (k.map (· ^^^ 0x5c) ++ Sha256.digest (k.map (· ^^^ 0x36) ++ message))

@[simp] theorem length_blockKey (key : Bytes) : (blockKey key).length = 64 := by
  simp only [blockKey, List.length_append, List.length_replicate]
  split
  · simp
  · omega

@[simp] theorem length_tag (key message : Bytes) : (tag key message).length = 32 := by
  simp [tag]

end Countersign.Hmac
