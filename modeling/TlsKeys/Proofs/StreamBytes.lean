import TlsKeys.Prf.Formula

/-!
The output of the pseudorandom function, byte by byte.

Byte `q` of an expansion stands in one block, and the blocks have one length, so
any run of whole blocks and any number of leading bytes are the bytes at
consecutive places. A stretch of the combined output is named by where it
begins and how long it is, and stretches that meet join into one.
-/

namespace TlsKeys.Prf

theorem link_link (hash : Hash) (secret seed : Bytes) (first second : Nat) :
    link hash secret (link hash secret seed first) second =
      link hash secret seed (first + second) := by
  induction second with
  | zero => rfl
  | succ second ih => rw [link, ih, ← Nat.add_assoc, link]

@[simp] theorem length_block (hash : Hash) (secret seed : Bytes) (i : Nat) :
    (block hash secret seed i).length = hash.outputLength :=
  Hash.length_hmac ..

/-- Byte `q` of the blocks laid one after the other. -/
def expansionByte (hash : Hash) (secret seed : Bytes) (q : Nat) : UInt8 :=
  have inside : q % hash.outputLength < (block hash secret seed (q / hash.outputLength)).length := by
    rw [length_block]
    exact Nat.mod_lt q hash.outputLength_pos
  (block hash secret seed (q / hash.outputLength))[q % hash.outputLength]

theorem block_eq_map (hash : Hash) (secret seed : Bytes) (i : Nat) :
    block hash secret seed i = (List.range hash.outputLength).map fun j =>
      expansionByte hash secret seed (hash.outputLength * i + j) := by
  apply List.ext_getElem
  · simp
  · intro j inBlock inRange
    rw [length_block] at inBlock
    have quotient : (hash.outputLength * i + j) / hash.outputLength = i := by
      rw [Nat.mul_add_div hash.outputLength_pos, Nat.div_eq_of_lt inBlock, Nat.add_zero]
    have remainder : (hash.outputLength * i + j) % hash.outputLength = j := by
      rw [Nat.mul_add_mod, Nat.mod_eq_of_lt inBlock]
    simp only [List.getElem_map, List.getElem_range, expansionByte, quotient, remainder]

theorem flatMap_block (hash : Hash) (secret seed : Bytes) (start count : Nat) :
    ((List.range count).flatMap fun i => block hash secret seed (start + i)) =
      (List.range (hash.outputLength * count)).map fun q =>
        expansionByte hash secret seed (hash.outputLength * start + q) := by
  induction count with
  | zero => rfl
  | succ count ih =>
    rw [List.range_succ, List.flatMap_append, ih, Nat.mul_succ, List.range_add, List.map_append,
      List.map_map, List.flatMap_singleton, block_eq_map]
    congr 1
    apply List.map_congr_left
    intro j _
    rw [Function.comp_apply, Nat.mul_add, Nat.add_assoc]

theorem expansion_eq_map (hash : Hash) (secret seed : Bytes) (count : Nat) :
    expansion hash secret seed count =
      (List.range count).map (expansionByte hash secret seed) := by
  have enough := Bytes.le_mul_pieceCount hash.outputLength_pos count
  have blocks := flatMap_block hash secret seed 0 (Bytes.pieceCount hash.outputLength count)
  simp only [Nat.zero_add, Nat.mul_zero] at blocks
  rw [expansion, blocks, ← List.map_take, List.take_range, Nat.min_eq_left enough]

def streamByte (first last seed : Bytes) (q : Nat) : UInt8 :=
  expansionByte .md5 first seed q ^^^ expansionByte .sha1 last seed q

/-- The `count` bytes of the function's output from byte `start` on. -/
def streamBytes (first last seed : Bytes) (start count : Nat) : Bytes :=
  (List.range count).map fun i => streamByte first last seed (start + i)

@[simp] theorem length_streamBytes (first last seed : Bytes) (start count : Nat) :
    (streamBytes first last seed start count).length = count := by
  simp [streamBytes]

theorem streamBytes_add (first last seed : Bytes) (start left right : Nat) :
    streamBytes first last seed start (left + right) =
      streamBytes first last seed start left ++
        streamBytes first last seed (start + left) right := by
  simp only [streamBytes, List.range_add, List.map_append, List.map_map]
  congr 1
  apply List.map_congr_left
  intro i _
  rw [Function.comp_apply, Nat.add_assoc]

theorem take_drop_streamBytes (first last seed : Bytes) (start : Nat) {skip length count : Nat}
    (inside : skip + length ≤ count) :
    ((streamBytes first last seed start count).drop skip).take length =
      streamBytes first last seed (start + skip) length := by
  obtain ⟨rest, rfl⟩ := Nat.exists_eq_add_of_le inside
  rw [streamBytes_add, streamBytes_add, List.append_assoc,
    List.drop_left' (length_streamBytes ..), List.take_left' (length_streamBytes ..)]

theorem xor_map_expansionByte (first last seed : Bytes) (start count : Nat) :
    Bytes.xor ((List.range count).map fun i => expansionByte .md5 first seed (start + i))
        ((List.range count).map fun i => expansionByte .sha1 last seed (start + i)) =
      streamBytes first last seed start count := by
  rw [Bytes.xor, List.zipWith_map, List.zipWith_self]
  rfl

theorem xor_expansion (first last seed : Bytes) (count : Nat) :
    Bytes.xor (expansion .md5 first seed count) (expansion .sha1 last seed count) =
      streamBytes first last seed 0 count := by
  have bytes := xor_map_expansionByte first last seed 0 count
  simp only [Nat.zero_add] at bytes
  rw [expansion_eq_map, expansion_eq_map, bytes]

end TlsKeys.Prf
