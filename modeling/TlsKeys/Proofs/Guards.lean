import TlsKeys.Handshake.Derivation
import TlsKeys.Proofs.ExpansionBlocks
import TlsKeys.Proofs.Output

/-!
The operations with a guard at every slice, copy and cut.

Elsewhere in this library a slice that goes beyond its bytes is shorter, and a
difference below zero is zero. Here it has no result, and neither has a copy
between places of different sizes or a cut into pieces of no bytes. A guarded
operation that has a result has the one that the operation has without guards,
and what is shown of each is that it always has.
-/

namespace TlsKeys

def difference? (left right : Nat) : Option Nat :=
  if right ≤ left then some (left - right) else none

theorem difference?_of_le {left right : Nat} (le : right ≤ left) :
    difference? left right = some (left - right) := if_pos le

namespace Bytes

/-- The bytes from `start` up to, but not with, `stop`. -/
def slice? (bytes : Bytes) (start stop : Nat) : Option Bytes :=
  if start ≤ stop ∧ stop ≤ bytes.length then some ((bytes.drop start).take (stop - start))
  else none

/-- The bytes of `target` after those of `source` have been copied over them. -/
def copy? (target source : Bytes) : Option Bytes :=
  if source.length = target.length then some source else none

def pieces? (size : Nat) (bytes : Bytes) : Option (List Bytes) :=
  if size = 0 then none else some (pieces size bytes)

def splitAt? (bytes : Bytes) (middle : Nat) : Option (Bytes × Bytes) :=
  if middle ≤ bytes.length then some (bytes.take middle, bytes.drop middle) else none

variable {bytes : Bytes} {start stop : Nat}

theorem slice?_of_le (forward : start ≤ stop) (inside : stop ≤ bytes.length) :
    slice? bytes start stop = some ((bytes.drop start).take (stop - start)) :=
  if_pos ⟨forward, inside⟩

theorem slice?_front (inside : stop ≤ bytes.length) :
    slice? bytes 0 stop = some (bytes.take stop) :=
  slice?_of_le (Nat.zero_le stop) inside

theorem slice?_back (inside : start ≤ bytes.length) :
    slice? bytes start bytes.length = some (bytes.drop start) := by
  rw [slice?_of_le inside (Nat.le_refl _), List.take_of_length_le]
  exact Nat.le_of_eq List.length_drop

theorem copy?_of_length_eq {target source : Bytes} (same : source.length = target.length) :
    copy? target source = some source := if_pos same

end Bytes

def halves? (secret : Bytes) : Option (Bytes × Bytes) := do
  let half := halfLength secret.length
  let first ← Bytes.slice? secret 0 half
  let start ← difference? secret.length half
  let last ← Bytes.slice? secret start secret.length
  return (first, last)

theorem halves?_eq_some (secret : Bytes) : halves? secret = some (halves secret) := by
  have half : halfLength secret.length ≤ secret.length := by
    rw [halfLength]
    omega
  rw [halves?, Bytes.slice?_front half, difference?_of_le half]
  simp only [Option.bind_eq_bind, Option.bind_some, Bytes.slice?_back (Nat.sub_le _ _)]
  rfl

def Buffer.slice? (buffer : Buffer) (region : Region) : Option Bytes :=
  Bytes.slice? buffer.bytes region.start.toNat region.stop.toNat

theorem Buffer.slice?_of_check {buffer : Buffer} {offset length : UInt64} {region : Region}
    (accepted : Region.check buffer.size offset length = .ok region) :
    buffer.slice? region = some (buffer.slice region) := by
  obtain ⟨inside, start, stop⟩ := Region.check_eq_ok_iff.mp accepted
  rw [toNat_size] at inside
  apply Bytes.slice?_of_le
  · rw [start, stop]
    exact Nat.le_add_right _ _
  · rw [stop]
    exact inside

theorem Mac.exists_tag {hash : Hash} {mac : Mac hash} (keyed : mac.hasKey = true) :
    ∃ tag, Mac.tag.on mac = (.ok tag, mac) ∧ tag.length = hash.outputLength := by
  cases mac with
  | unkeyed => cases keyed
  | keyed mac => exact ⟨mac.tag, on_tag_keyed mac, mac.length_tag⟩

def Mac.append? {hash : Hash} (bytes : Buffer) (offset length : UInt64) (mac : Mac hash) :
    Option (Except Failure Unit × Mac hash) :=
  match Region.check bytes.size offset length with
  | .error failure => some (.error failure, mac)
  | .ok region =>
    match mac with
    | .unkeyed => some (.error .macNotKeyed, .unkeyed)
    | .keyed mac => do
      let part ← bytes.slice? region
      return (.ok (), .keyed (mac.absorb part))

theorem Mac.append?_eq_some {hash : Hash} (bytes : Buffer) (offset length : UInt64)
    (mac : Mac hash) :
    mac.append? bytes offset length = some ((append bytes offset length).on mac) := by
  rw [append?, on_append]
  cases checked : Region.check bytes.size offset length with
  | error failure => rfl
  | ok region =>
    cases mac with
    | unkeyed => rfl
    | keyed mac =>
      simp only [Buffer.slice?_of_check checked, Option.bind_eq_bind, Option.bind_some,
        Option.pure_def, on_absorb_keyed]

/-- A piece of a buffer after a part of a block as long as the piece has gone into it. -/
def Mode.combine? : Mode → Bytes → Bytes → Option Bytes
  | .replace, piece, part => Bytes.copy? piece part
  | .exclusiveOr, piece, part => some (Bytes.xor piece part ++ piece.drop part.length)

theorem Mode.combine?_eq_some (mode : Mode) {piece part : Bytes}
    (same : part.length = piece.length) :
    mode.combine? piece part = some (mode.written piece part) := by
  cases mode with
  | replace => exact Bytes.copy?_of_length_eq same
  | exclusiveOr => rw [combine?, same, List.drop_length, List.append_nil, written]

namespace Expansion

variable {hash : Hash}

def extendPieces? (seed : Bytes) (mode : Mode) :
    List Bytes → Expansion hash → Option (Bytes × Expansion hash)
  | [], expansion => some ([], expansion)
  | piece :: pieces, expansion => do
    let (block, expansion) := expansion.nextBlock seed
    let part ← Bytes.slice? block 0 piece.length
    let combined ← mode.combine? piece part
    let (rest, expansion) ← extendPieces? seed mode pieces expansion
    return (combined ++ rest, expansion)

def extend? (expansion : Expansion hash) (seed : Bytes) (mode : Mode) (buffer : Bytes) :
    Option (Bytes × Expansion hash) := do
  let pieces ← Bytes.pieces? (blockLength hash) buffer
  extendPieces? seed mode pieces expansion

/-- No piece is longer than a block, so every block has a part for it. -/
theorem exists_slice?_nextBlock (expansion : Expansion hash) (seed : Bytes) {piece : Bytes}
    (short : piece.length ≤ blockLength hash) :
    ∃ part, Bytes.slice? (expansion.nextBlock seed).1 0 piece.length = some part ∧
      part.length = piece.length ∧
      ∀ mode : Mode, mode.combine? piece part =
        some (List.zipWith mode.combine piece (expansion.nextBlock seed).1) := by
  have enough : piece.length ≤ (expansion.nextBlock seed).1.length := by
    rw [length_nextBlock, ← blockLength_eq_outputLength]
    exact short
  have same := List.length_take_of_le enough
  refine ⟨_, Bytes.slice?_front enough, same, fun mode => ?_⟩
  rw [mode.combine?_eq_some same, mode.zipWith_combine_take enough]

theorem extendPieces?_eq_some (seed : Bytes) (mode : Mode) {pieces : List Bytes}
    (short : ∀ piece ∈ pieces, piece.length ≤ blockLength hash) (expansion : Expansion hash) :
    extendPieces? seed mode pieces expansion = some (extendPieces seed mode pieces expansion) := by
  induction pieces generalizing expansion with
  | nil => rfl
  | cons piece pieces ih =>
    obtain ⟨shortPiece, shortRest⟩ := List.forall_mem_cons.mp short
    obtain ⟨part, sliced, _, combined⟩ := exists_slice?_nextBlock expansion seed shortPiece
    simp only [extendPieces?, extendPieces, sliced, combined, ih shortRest, Option.bind_eq_bind,
      Option.bind_some, Option.pure_def]

theorem extend?_eq_some (expansion : Expansion hash) (seed : Bytes) (mode : Mode)
    (buffer : Bytes) :
    expansion.extend? seed mode buffer = some (expansion.extend seed mode buffer) := by
  have positive := Nat.ne_of_gt (blockLength_pos hash)
  rw [extend?, Bytes.pieces?, if_neg positive]
  exact extendPieces?_eq_some seed mode (fun _ => Bytes.length_le_of_mem_pieces) expansion

end Expansion

namespace KeyStream

def refill? (stream : KeyStream) : Option KeyStream := do
  let (written, md5) ← stream.md5.extend? stream.seed .replace stream.buffer
  let (combined, sha1) ← stream.sha1.extend? stream.seed .exclusiveOr written
  return { stream with md5, sha1, buffer := combined, cursor := 0 }

theorem refill?_eq_some (stream : KeyStream) : stream.refill? = some stream.refill := by
  simp only [refill?, Expansion.extend?_eq_some, Option.bind_eq_bind, Option.bind_some]
  rfl

end KeyStream

def handshakeHash? (transcript : Bytes) : Option Bytes := do
  let (front, back) ←
    Bytes.splitAt? (List.replicate handshakeHashLength 0) Hash.md5.outputLength
  let md5 ← Bytes.copy? front (Hash.md5.digest transcript)
  let sha1 ← Bytes.copy? back (Hash.sha1.digest transcript)
  return md5 ++ sha1

theorem handshakeHash?_eq_some (transcript : Bytes) :
    handshakeHash? transcript = some (handshakeHash transcript).val := by
  let whole : Bytes := List.replicate handshakeHashLength 0
  have front : (Hash.md5.digest transcript).length =
      (whole.take Hash.md5.outputLength).length := by
    rw [Hash.length_digest]
    rfl
  have back : (Hash.sha1.digest transcript).length =
      (whole.drop Hash.md5.outputLength).length := by
    rw [Hash.length_digest]
    rfl
  have fits : Hash.md5.outputLength ≤ whole.length := by decide
  rw [handshakeHash?, Bytes.splitAt?, if_pos fits]
  simp only [Option.bind_eq_bind, Option.bind_some]
  rw [Bytes.copy?_of_length_eq front, Bytes.copy?_of_length_eq back]
  rfl

end TlsKeys
