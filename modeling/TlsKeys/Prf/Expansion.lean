import TlsKeys.Mac
import TlsKeys.Prf.Formula

/-!
The expansion of a key and a seed over one hash, block by block.

The current link is kept between calls, so that successive calls go on with the
same stream of blocks. Each block begun costs one step, a partial one included.

What a keyed expansion does from any link on is said by `restart_keyedAt` and
`extend_keyedAt`, in terms of the formulas alone.
-/

namespace TlsKeys

/-- How a block of output goes into the buffer. -/
inductive Mode where
  | replace
  | exclusiveOr
  deriving DecidableEq, Repr

def Mode.combine : Mode → UInt8 → UInt8 → UInt8
  | .replace, _, new => new
  | .exclusiveOr, old, new => old ^^^ new

structure Expansion (hash : Hash) where
  /-- Keyed, with no message in progress between calls. -/
  mac : Hmac hash
  /-- The link of the next block; empty before the first `restart`. -/
  link : Bytes
  deriving DecidableEq

namespace Expansion

variable {hash : Hash}

instance : Copyable (Expansion hash) where
  copy expansion :=
    { mac := Copyable.copy expansion.mac
      link := expansion.link }
  copy_eq expansion := by rw [Copyable.copy_eq]

/-- The number of bytes of a block, which is that of a tag. -/
def blockLength (hash : Hash) : Nat :=
  Mac.tagLength hash

@[simp] theorem blockLength_eq_outputLength (hash : Hash) :
    blockLength hash = hash.outputLength :=
  Mac.tagLength_eq_outputLength hash

theorem blockLength_pos (hash : Hash) : 0 < blockLength hash := by
  rw [blockLength_eq_outputLength]
  exact hash.outputLength_pos

def ofKey (hash : Hash) (key : Bytes) : Expansion hash where
  mac := Hmac.ofKey hash key
  link := []

def restart (expansion : Expansion hash) (seed : Bytes) : Expansion hash :=
  let mac := expansion.mac.clear.absorb seed
  { mac := mac.clear
    link := mac.tag }

/-- The block of the current link, and the step to the next link. -/
def nextBlock (expansion : Expansion hash) (seed : Bytes) : Bytes × Expansion hash :=
  let forBlock := (expansion.mac.absorb expansion.link).absorb seed
  let forLink := forBlock.clear.absorb expansion.link
  (forBlock.tag, { mac := forLink.clear, link := forLink.tag })

def extendPieces (seed : Bytes) (mode : Mode) :
    List Bytes → Expansion hash → Bytes × Expansion hash
  | [], expansion => ([], expansion)
  | piece :: pieces, expansion =>
    let (block, expansion) := expansion.nextBlock seed
    let (rest, expansion) := extendPieces seed mode pieces expansion
    (List.zipWith mode.combine piece block ++ rest, expansion)

def extend (expansion : Expansion hash) (seed : Bytes) (mode : Mode) (buffer : Bytes) :
    Bytes × Expansion hash :=
  extendPieces seed mode (Bytes.pieces (blockLength hash) buffer) expansion

/-- The expansion keyed with `key` whose next link is `link`. -/
def keyedAt (hash : Hash) (key link : Bytes) : Expansion hash where
  mac := Hmac.ofKey hash key
  link := link

theorem ofKey_eq_keyedAt (hash : Hash) (key : Bytes) : ofKey hash key = keyedAt hash key [] := rfl

theorem restart_keyedAt (key link seed : Bytes) :
    (keyedAt hash key link).restart seed = keyedAt hash key (hash.hmac key seed) := by
  simp [restart, keyedAt, Hmac.clear_ofKey, Hmac.absorb_ofKey, Hmac.clear_ofMessage,
    Hmac.tag_ofMessage]

theorem nextBlock_keyedAt (key link seed : Bytes) :
    (keyedAt hash key link).nextBlock seed =
      (hash.hmac key (link ++ seed), keyedAt hash key (hash.hmac key link)) := by
  simp [nextBlock, keyedAt, Hmac.absorb_ofKey, Hmac.absorb_ofMessage, Hmac.clear_ofMessage,
    Hmac.tag_ofMessage]

theorem extendPieces_keyedAt (key link seed buffer : Bytes) (mode : Mode) (count : Nat) :
    extendPieces seed mode (Bytes.cut hash.outputLength count buffer) (keyedAt hash key link) =
      (List.zipWith mode.combine buffer
          ((List.range count).flatMap fun i => hash.hmac key (Prf.link hash key link i ++ seed)),
        keyedAt hash key (Prf.link hash key link count)) := by
  induction count generalizing link buffer with
  | zero => simp [Bytes.cut, extendPieces, Prf.link]
  | succ count ih =>
    simp only [Bytes.cut, extendPieces, nextBlock_keyedAt, ih, Prf.link_hmac,
      List.range_succ_eq_map, List.flatMap_cons, List.flatMap_map, Prf.link]
    rw [Bytes.zipWith_append_right, Hash.length_hmac]

theorem extend_keyedAt (key link seed buffer : Bytes) (mode : Mode) :
    (keyedAt hash key link).extend seed mode buffer =
      let count := Bytes.pieceCount hash.outputLength buffer.length
      (List.zipWith mode.combine buffer
          ((List.range count).flatMap fun i => hash.hmac key (Prf.link hash key link i ++ seed)),
        keyedAt hash key (Prf.link hash key link count)) := by
  rw [extend, blockLength_eq_outputLength]
  exact extendPieces_keyedAt key link seed buffer mode _

@[simp] theorem length_nextBlock (expansion : Expansion hash) (seed : Bytes) :
    (expansion.nextBlock seed).1.length = hash.outputLength := by
  simp [nextBlock]

theorem length_extendPieces (seed : Bytes) (mode : Mode) {pieces : List Bytes}
    (short : ∀ piece ∈ pieces, piece.length ≤ blockLength hash) (expansion : Expansion hash) :
    (extendPieces seed mode pieces expansion).1.length = pieces.flatten.length := by
  induction pieces generalizing expansion with
  | nil => rfl
  | cons piece pieces ih =>
    obtain ⟨shortPiece, shortRest⟩ := List.forall_mem_cons.mp short
    simp only [extendPieces, List.length_append, List.length_zipWith, length_nextBlock,
      ← blockLength_eq_outputLength, Nat.min_eq_left shortPiece, ih shortRest, List.flatten_cons]

/-- The buffer keeps its size. -/
@[simp] theorem length_extend (expansion : Expansion hash) (seed : Bytes) (mode : Mode)
    (buffer : Bytes) : (expansion.extend seed mode buffer).1.length = buffer.length := by
  rw [extend, length_extendPieces seed mode fun _ => Bytes.length_le_of_mem_pieces,
    Bytes.flatten_pieces (blockLength_pos hash)]

inductive Op where
  | blockLength
  | restart (seed : Bytes)
  | extend (seed : Bytes) (mode : Mode) (buffer : Bytes)
  deriving DecidableEq

def step (op : Op) (expansion : Expansion hash) : Reply × Expansion hash :=
  match op with
  | .blockLength => (.number (blockLength hash), expansion)
  | .restart seed => (.done, expansion.restart seed)
  | .extend seed mode buffer =>
    let (bytes, expansion) := expansion.extend seed mode buffer
    (.bytes bytes, expansion)

end Expansion

end TlsKeys
