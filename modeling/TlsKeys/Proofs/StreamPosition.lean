import TlsKeys.Prf.KeyStream
import TlsKeys.Proofs.StreamBytes

/-!
A key stream is determined by the halves of its secret, its seed and the number
of bytes it has delivered.

The buffer is filled once before any byte is asked for, and then whenever a
byte is asked for and the bytes of all fills so far have been delivered. So a
stream whose last fill has just been used up is not yet in the next fill, and
the state after a read is again the state of a position (`read_atPosition`).
-/

namespace TlsKeys

theorem Mode.zipWith_replace {old new : Bytes} (same : new.length = old.length) :
    List.zipWith Mode.replace.combine old new = new := by
  apply List.ext_getElem
  · simp [same]
  · intro i _ _
    rw [List.getElem_zipWith, combine]

namespace KeyStream

def blocksPerFill (hash : Hash) : Nat :=
  bufferLength / hash.outputLength

theorem outputLength_mul_blocksPerFill (hash : Hash) :
    hash.outputLength * blocksPerFill hash = bufferLength :=
  Nat.mul_div_cancel' (outputLength_dvd_bufferLength hash)

@[simp] theorem blocksPerFill_md5 : blocksPerFill .md5 = 5 := rfl

@[simp] theorem blocksPerFill_sha1 : blocksPerFill .sha1 = 4 := rfl

theorem extend_fill (hash : Hash) (key seed : Bytes) (mode : Mode) (fill : Nat) {buffer : Bytes}
    (whole : buffer.length = bufferLength) :
    (Expansion.keyedAt hash key (Prf.link hash key seed (blocksPerFill hash * fill + 1))).extend
        seed mode buffer =
      (List.zipWith mode.combine buffer ((List.range bufferLength).map fun q =>
          Prf.expansionByte hash key seed (bufferLength * fill + q)),
        Expansion.keyedAt hash key
          (Prf.link hash key seed (blocksPerFill hash * (fill + 1) + 1))) := by
  have count : Bytes.pieceCount hash.outputLength buffer.length = blocksPerFill hash := by
    rw [whole, ← outputLength_mul_blocksPerFill hash, Bytes.pieceCount_mul hash.outputLength_pos]
  have blocks := Prf.flatMap_block hash key seed (blocksPerFill hash * fill) (blocksPerFill hash)
  rw [← Nat.mul_assoc, outputLength_mul_blocksPerFill] at blocks
  rw [Expansion.extend_keyedAt, count, ← blocks]
  simp only [Prf.link_link, Prf.block, Prod.mk.injEq]
  refine ⟨?_, ?_⟩
  · congr 2
    funext i
    rw [Nat.add_right_comm]
  · rw [Nat.mul_succ, Nat.add_right_comm]

/-- The stream in which the buffer has been filled `fill` times before the last, and `cursor`
bytes of the last fill have been delivered. -/
def inFill (first last seed : Bytes) (fill cursor : Nat) : KeyStream where
  md5 := .keyedAt .md5 first (Prf.link .md5 first seed (5 * (fill + 1) + 1))
  sha1 := .keyedAt .sha1 last (Prf.link .sha1 last seed (4 * (fill + 1) + 1))
  seed
  buffer := Prf.streamBytes first last seed (bufferLength * fill) bufferLength
  cursor

/-- The bytes that stood in the buffer before do not matter, only their number does. -/
theorem refill_keyedAt (first last seed : Bytes) (fill cursor : Nat) {buffer : Bytes}
    (whole : buffer.length = bufferLength) :
    refill
        { md5 := .keyedAt .md5 first (Prf.link .md5 first seed (5 * fill + 1))
          sha1 := .keyedAt .sha1 last (Prf.link .sha1 last seed (4 * fill + 1))
          seed, buffer, cursor } =
      inFill first last seed fill 0 := by
  have md5 := extend_fill .md5 first seed .replace fill whole
  rw [Mode.zipWith_replace (by simp [whole]), blocksPerFill_md5] at md5
  -- The first pass leaves no byte of the old buffer, so the second combines with it alone.
  have written : ((List.range bufferLength).map fun q =>
      Prf.expansionByte .md5 first seed (bufferLength * fill + q)).length = bufferLength := by
    simp
  have sha1 := extend_fill .sha1 last seed .exclusiveOr fill written
  change _ = (Bytes.xor _ _, _) at sha1
  rw [Prf.xor_map_expansionByte, blocksPerFill_sha1] at sha1
  simp only [refill, md5, sha1]
  rfl

theorem refill_inFill (first last seed : Bytes) (fill cursor : Nat) :
    (inFill first last seed fill cursor).refill = inFill first last seed (fill + 1) 0 :=
  refill_keyedAt first last seed (fill + 1) cursor (Prf.length_streamBytes ..)

/-- The number of fills made when `position` bytes have been delivered. -/
def fillCount (position : Nat) : Nat :=
  max 1 (Bytes.pieceCount bufferLength position)

/-- The stream that has delivered `position` bytes. -/
def atPosition (first last seed : Bytes) (position : Nat) : KeyStream :=
  let earlier := fillCount position - 1
  inFill first last seed earlier (position - bufferLength * earlier)

theorem start_keyedAt (first last md5Link sha1Link seed : Bytes) :
    start (.keyedAt .md5 first md5Link) (.keyedAt .sha1 last sha1Link) seed =
      atPosition first last seed 0 := by
  rw [start, Expansion.restart_keyedAt, Expansion.restart_keyedAt]
  exact refill_keyedAt first last seed 0 bufferLength List.length_replicate

theorem ofSecret_eq_atPosition (secret seed : Bytes) :
    ofSecret secret seed = atPosition (halves secret).1 (halves secret).2 seed 0 :=
  start_keyedAt ..

/-- Started again, a stream is a new one under the same secret: nothing of the position stays. -/
theorem restart_atPosition (secret earlierSeed seed : Bytes) (position : Nat) :
    start (atPosition (halves secret).1 (halves secret).2 earlierSeed position).md5
        (atPosition (halves secret).1 (halves secret).2 earlierSeed position).sha1 seed =
      ofSecret secret seed := by
  rw [ofSecret_eq_atPosition]
  exact start_keyedAt ..

theorem inFill_eq_atPosition (first last seed : Bytes) (fill : Nat) {cursor : Nat}
    (begun : 0 < cursor) (within : cursor ≤ bufferLength) :
    inFill first last seed fill cursor =
      atPosition first last seed (bufferLength * fill + cursor) := by
  have fills : fillCount (bufferLength * fill + cursor) - 1 = fill := by
    simp only [fillCount, Bytes.pieceCount, bufferLength] at within ⊢
    omega
  simp only [atPosition, fills, Nat.add_sub_cancel_left]

theorem cursor_atPosition (first last seed : Bytes) (position : Nat) :
    (atPosition first last seed position).cursor =
      position - bufferLength * (fillCount position - 1) := rfl

theorem prepare_atPosition (first last seed : Bytes) (position : Nat) :
    (atPosition first last seed position).prepare =
      inFill first last seed (position / bufferLength) (position % bufferLength) := by
  by_cases left : (atPosition first last seed position).cursor < bufferLength
  · rw [prepare_of_lt left]
    rw [cursor_atPosition] at left
    have fill : fillCount position - 1 = position / bufferLength := by
      simp only [fillCount, Bytes.pieceCount, bufferLength] at left ⊢
      omega
    rw [atPosition, fill, Nat.mod_eq_sub_mul_div]
  · rw [prepare, if_neg left, atPosition, refill_inFill]
    rw [cursor_atPosition] at left
    have fill : fillCount position - 1 + 1 = position / bufferLength := by
      simp only [fillCount, Bytes.pieceCount, bufferLength] at left ⊢
      omega
    have cursor : position % bufferLength = 0 := by
      simp only [fillCount, Bytes.pieceCount, bufferLength] at left ⊢
      omega
    rw [fill, cursor]

theorem read_of_prepare_eq {stream : KeyStream} {first last seed : Bytes}
    {fill cursor count now : Nat} (prepared : stream.prepare = inFill first last seed fill cursor)
    (positive : 0 < count) (taken : now = min (bufferLength - cursor) count)
    (within : cursor < bufferLength) :
    stream.read count =
      let (rest, left) := (inFill first last seed fill (cursor + now)).read (count - now)
      (Prf.streamBytes first last seed (bufferLength * fill + cursor) now ++ rest, left) := by
  have inside : cursor + now ≤ bufferLength := by omega
  rw [read_pos positive, prepared, ← Prf.take_drop_streamBytes first last seed _ inside, taken]
  rfl

/-- A read delivers the bytes of the output from the position on, and moves the position. -/
theorem read_atPosition (first last seed : Bytes) (position count : Nat) :
    (atPosition first last seed position).read count =
      (Prf.streamBytes first last seed position count,
        atPosition first last seed (position + count)) := by
  induction count using Nat.strongRecOn generalizing position with
  | ind count ih =>
    by_cases empty : count = 0
    · subst empty
      exact read_zero _
    have division := Nat.div_add_mod position bufferLength
    have within : position % bufferLength < bufferLength := Nat.mod_lt position (by decide)
    -- The first `now` bytes come from one fill. The rest may take many fills, and begins at a
    -- position again, also when it begins at the end of this fill.
    obtain ⟨now, taken⟩ : ∃ now, now = min (bufferLength - position % bufferLength) count :=
      ⟨_, rfl⟩
    have moved : inFill first last seed (position / bufferLength)
        (position % bufferLength + now) = atPosition first last seed (position + now) := by
      rw [inFill_eq_atPosition first last seed _ (by omega) (by omega), ← Nat.add_assoc, division]
    rw [read_of_prepare_eq (prepare_atPosition first last seed position) (Nat.pos_of_ne_zero empty)
      taken within, moved, division, ih (count - now) (by omega)]
    have rest : now + (count - now) = count := by omega
    simp only [← Prf.streamBytes_add, Nat.add_assoc, rest]

/-- The parts of a stream that has delivered `delivered` bytes of the output for two halves of a
secret and a seed. -/
structure InPhase (first last seed : Bytes) (delivered : Nat) (stream : KeyStream) : Prop where
  /-- The buffer holds the bytes of the last fill. -/
  buffer : stream.buffer = (List.range bufferLength).map fun i =>
    Prf.streamByte first last seed (bufferLength * (fillCount delivered - 1) + i)
  cursor : bufferLength * (fillCount delivered - 1) + stream.cursor = delivered
  cursor_le : stream.cursor ≤ bufferLength
  /-- Five links of MD5 and four of SHA-1 have gone into every fill. -/
  md5Link : stream.md5.link = Prf.link .md5 first seed (5 * fillCount delivered + 1)
  sha1Link : stream.sha1.link = Prf.link .sha1 last seed (4 * fillCount delivered + 1)
  /-- No message is in progress. -/
  md5Mac : stream.md5.mac = Hmac.ofKey .md5 first
  sha1Mac : stream.sha1.mac = Hmac.ofKey .sha1 last
  seed : stream.seed = seed

theorem inPhase_atPosition (first last seed : Bytes) (position : Nat) :
    (atPosition first last seed position).InPhase first last seed position := by
  have begun : fillCount position - 1 + 1 = fillCount position :=
    Nat.sub_add_cancel (Nat.le_max_left ..)
  have before : bufferLength * (fillCount position - 1) ≤ position := by
    simp only [fillCount, Bytes.pieceCount, bufferLength]
    omega
  have within : position - bufferLength * (fillCount position - 1) ≤ bufferLength := by
    simp only [fillCount, Bytes.pieceCount, bufferLength]
    omega
  exact {
    buffer := rfl
    cursor := Nat.add_sub_cancel' before
    cursor_le := within
    md5Link := congrArg (fun fills => Prf.link .md5 first seed (5 * fills + 1)) begun
    sha1Link := congrArg (fun fills => Prf.link .sha1 last seed (4 * fills + 1)) begun
    md5Mac := rfl
    sha1Mac := rfl
    seed := rfl }

end KeyStream

end TlsKeys
