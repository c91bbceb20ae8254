import TlsKeys.Proofs.ExpansionCalls
import TlsKeys.Proofs.Scripts
import TlsKeys.Proofs.StreamPosition

/-!
What an expansion writes from wherever it stands.

An expansion remembers its key and one link, whatever was done with it before.
From that link on it writes one block per link, cut off at the end of the
buffer, and it goes on to the link after the last block that it began. So whole
blocks may be asked for in one buffer or in several (`extend_append`).
-/

namespace TlsKeys

/-- What stands in a buffer after as many new bytes have gone into it. -/
def Mode.written : Mode → Bytes → Bytes → Bytes
  | .replace, _, new => new
  | .exclusiveOr, old, new => Bytes.xor old new

theorem Mode.zipWith_combine (mode : Mode) {old new : Bytes} (same : new.length = old.length) :
    List.zipWith mode.combine old new = mode.written old new := by
  cases mode with
  | replace => exact zipWith_replace same
  | exclusiveOr => rfl

/-- Bytes that the buffer has no room for do not matter. -/
theorem Mode.zipWith_combine_take (mode : Mode) {old new : Bytes}
    (enough : old.length ≤ new.length) :
    List.zipWith mode.combine old new = mode.written old (new.take old.length) := by
  have same : (new.take old.length).length = old.length := by
    rw [List.length_take, Nat.min_eq_left enough]
  rw [← mode.zipWith_combine same, List.zipWith_eq_zipWith_take_min, Nat.min_eq_left enough,
    List.take_length]

namespace Expansion

variable {hash : Hash}

theorem extend_keyedAt_written (key link seed buffer : Bytes) (mode : Mode) :
    let count := Bytes.pieceCount hash.outputLength buffer.length
    let blocks := (List.range count).flatMap fun i =>
      hash.hmac key (Prf.link hash key link i ++ seed)
    (keyedAt hash key link).extend seed mode buffer =
      (mode.written buffer (blocks.take buffer.length),
        keyedAt hash key (Prf.link hash key link count)) := by
  intro count blocks
  have enough : buffer.length ≤ blocks.length := by
    simp only [blocks, List.length_flatMap, Hash.length_hmac, List.map_const',
      List.sum_replicate_nat, List.length_range]
    rw [Nat.mul_comm]
    exact Bytes.le_mul_pieceCount hash.outputLength_pos buffer.length
  rw [extend_keyedAt, ← mode.zipWith_combine_take enough]

theorem extendPieces_append (seed : Bytes) (mode : Mode) (first second : List Bytes)
    (expansion : Expansion hash) :
    extendPieces seed mode (first ++ second) expansion =
      let (bytes, middle) := extendPieces seed mode first expansion
      let (more, last) := extendPieces seed mode second middle
      (bytes ++ more, last) := by
  induction first generalizing expansion with
  | nil => rfl
  | cons piece first ih =>
    simp only [List.cons_append, extendPieces, ih, List.append_assoc]

/-- Whole blocks, and then whatever follows them, may be asked for in two calls. -/
theorem extend_append (expansion : Expansion hash) (seed : Bytes) (mode : Mode) {left : Bytes}
    (whole : hash.outputLength ∣ left.length) (right : Bytes) :
    expansion.extend seed mode (left ++ right) =
      let (bytes, middle) := expansion.extend seed mode left
      let (more, last) := middle.extend seed mode right
      (bytes ++ more, last) := by
  simp only [extend, blockLength_eq_outputLength]
  rw [Bytes.pieces_append hash.outputLength_pos whole, extendPieces_append]

/-- The expansion has the key, stands at some link, and has no message in progress. -/
def Keyed (key : Bytes) (expansion : Expansion hash) : Prop :=
  ∃ link, expansion = keyedAt hash key link

theorem keyed_ofKey (hash : Hash) (key : Bytes) : (ofKey hash key).Keyed key :=
  ⟨[], ofKey_eq_keyedAt hash key⟩

theorem Keyed.step {key : Bytes} (op : Op) (expansion : Expansion hash)
    (keyed : expansion.Keyed key) : (step op expansion).2.Keyed key := by
  obtain ⟨link, rfl⟩ := keyed
  cases op with
  | blockLength => exact ⟨link, rfl⟩
  | restart seed => exact ⟨_, restart_keyedAt key link seed⟩
  | extend seed mode buffer =>
    exact ⟨_, congrArg Prod.snd (extend_keyedAt key link seed buffer mode)⟩

/-- Whatever was done with an expansion before, it stands at a link under its key. From any link on
and for any seed, no call inside a step is refused, a start comes to the tag of the seed, and an
extension writes one block per link, the last one cut off, and comes to the link after it. -/
theorem extend_from_link (hash : Hash) (key : Bytes) :
    (∀ earlier, (runScript step earlier (ofKey hash key)).2.Keyed key) ∧
      (∀ (mac : Mac hash) (bytes : Buffer),
        (Mac.appendAll bytes).on mac = (Mac.absorb bytes.bytes).on mac) ∧
      (∀ link seed : Bytes,
        (RawExpansion.restart seed).on (keyedAt hash key link).raw =
            (.ok (), (keyedAt hash key (hash.hmac key seed)).raw) ∧
          (keyedAt hash key link).restart seed = keyedAt hash key (hash.hmac key seed)) ∧
      (∀ (link seed : Bytes) (mode : Mode) (buffer : Bytes),
        let count := (buffer.length + (hash.outputLength - 1)) / hash.outputLength
        let blocks := (List.range count).flatMap fun i =>
          hash.hmac key (Prf.link hash key link i ++ seed)
        let written := mode.written buffer (blocks.take buffer.length)
        let last := keyedAt hash key (Prf.link hash key link count)
        (RawExpansion.extend seed mode).on ((keyedAt hash key link).raw, buffer) =
            (.ok (), last.raw, written) ∧
          (keyedAt hash key link).extend seed mode buffer = (written, last)) ∧
      ∀ (link seed : Bytes) (mode : Mode) (left right : Bytes),
        hash.outputLength ∣ left.length →
          (keyedAt hash key link).extend seed mode (left ++ right) =
            let (bytes, middle) := (keyedAt hash key link).extend seed mode left
            let (more, last) := middle.extend seed mode right
            (bytes ++ more, last) := by
  refine ⟨fun earlier => holds_runScript Keyed.step (keyed_ofKey hash key) earlier,
    fun mac bytes => Mac.on_appendAll bytes mac, ?_, ?_, ?_⟩
  · intro link seed
    have called := RawExpansion.on_restart (keyedAt hash key link) seed
    rw [restart_keyedAt] at called
    exact ⟨called, restart_keyedAt ..⟩
  · intro link seed mode buffer count blocks written last
    have extended : (keyedAt hash key link).extend seed mode buffer = (written, last) :=
      extend_keyedAt_written key link seed buffer mode
    have called := RawExpansion.on_extend (keyedAt hash key link) seed mode buffer
    rw [extended] at called
    exact ⟨called, extended⟩
  · intro link seed mode left right whole
    exact extend_append _ seed mode whole right

theorem extend_from_link_two_buffers :
    let chain := (runScript step [.restart [2], .extend [3] .replace [0, 0, 0]] (ofKey .sha1 [1])).2
    let left := List.replicate 20 7
    Hash.sha1.outputLength ∣ left.length ∧
      chain.extend [4] .exclusiveOr (left ++ [8, 9]) =
        let (bytes, middle) := chain.extend [4] .exclusiveOr left
        let (more, last) := middle.extend [4] .exclusiveOr [8, 9]
        (bytes ++ more, last) := by
  intro chain left
  have whole : Hash.sha1.outputLength ∣ left.length := by decide
  obtain ⟨keyed, _, _, _, joined⟩ := extend_from_link .sha1 [1]
  obtain ⟨link, stands⟩ : chain.Keyed [1] := keyed _
  rw [stands]
  exact ⟨whole, joined link [4] .exclusiveOr left [8, 9] whole⟩

end Expansion

end TlsKeys
