import TlsKeys.Copyable
import TlsKeys.Hash.Digest

/-!
A hash in progress: the state after the whole blocks seen so far, the bytes of
the block not yet complete, and the number of bytes in all.

A context is determined by the message absorbed so far, however it was cut
(`absorb_ofMessage`), and finishing it gives the hash of that message
(`finish_ofMessage`).
-/

namespace TlsKeys.Hash

structure Context (hash : Hash) where
  state : hash.State
  pending : Bytes
  length : Nat
  deriving DecidableEq

namespace Context

variable {hash : Hash}

instance : Copyable (Context hash) where
  copy context :=
    { state := context.state
      pending := context.pending
      length := context.length }
  copy_eq _ := rfl

def start (hash : Hash) : Context hash where
  state := hash.initial
  pending := []
  length := 0

/-- Compress the blocks that `bytes` completes and keep the rest. -/
def absorb (context : Context hash) (bytes : Bytes) : Context hash :=
  let waiting := context.pending ++ bytes
  let count := waiting.length / blockLength
  { state := hash.compressBlocks context.state count waiting
    pending := waiting.drop (blockLength * count)
    length := context.length + bytes.length }

def finish (context : Context hash) : Bytes :=
  let last := context.pending ++ hash.padding context.length
  output (hash.compressBlocks context.state (last.length / blockLength) last)

/-- The context in which exactly `message` has been absorbed. -/
def ofMessage (hash : Hash) (message : Bytes) : Context hash where
  state := hash.compressBlocks hash.initial (message.length / blockLength) message
  pending := message.drop (blockLength * (message.length / blockLength))
  length := message.length

theorem ofMessage_nil (hash : Hash) : ofMessage hash [] = start hash := by
  simp [ofMessage, start, compressBlocks, Bytes.cut]

theorem absorb_ofMessage (message bytes : Bytes) :
    (ofMessage hash message).absorb bytes = ofMessage hash (message ++ bytes) := by
  have whole : blockLength * (message.length / blockLength) ≤ message.length :=
    Nat.mul_div_le _ _
  have rest : message.drop (blockLength * (message.length / blockLength)) ++ bytes =
      (message ++ bytes).drop (blockLength * (message.length / blockLength)) :=
    (List.drop_append_of_le_length whole).symm
  have count : (message ++ bytes).length / blockLength = message.length / blockLength +
      ((message ++ bytes).drop (blockLength * (message.length / blockLength))).length /
        blockLength := by
    simp only [List.length_drop, List.length_append, blockLength]
    omega
  simp only [absorb, ofMessage, rest, mk.injEq, List.length_append, and_true]
  rw [← List.length_append, count, compressBlocks_add, compressBlocks_append_left _ _ _ _ _ whole,
    List.drop_drop, Nat.mul_add]
  exact ⟨rfl, rfl⟩

theorem finish_ofMessage (message : Bytes) :
    (ofMessage hash message).finish = hash.digest message := by
  have whole : blockLength * (message.length / blockLength) ≤ message.length :=
    Nat.mul_div_le _ _
  simp only [finish, ofMessage, digest]
  rw [← List.drop_append_of_le_length whole]
  generalize suffix : hash.padding message.length = padding
  have count : (message ++ padding).length / blockLength = message.length / blockLength +
      ((message ++ padding).drop (blockLength * (message.length / blockLength))).length /
        blockLength := by
    simp only [List.length_drop, List.length_append, blockLength]
    omega
  rw [count, compressBlocks_add, compressBlocks_append_left _ _ _ _ _ whole]

theorem absorb_start (message : Bytes) : (start hash).absorb message = ofMessage hash message := by
  rw [← ofMessage_nil, absorb_ofMessage, List.nil_append]

@[simp] theorem length_finish (context : Context hash) :
    context.finish.length = hash.outputLength := by
  simp [finish]

end Context

end TlsKeys.Hash
