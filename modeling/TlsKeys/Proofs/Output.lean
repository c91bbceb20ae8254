import TlsKeys.Handshake.Derivation
import TlsKeys.Proofs.StreamPosition

/-!
What a new generator writes over a buffer is what the formulas say.

The formulas take the first and the last bytes of the secret and expand each half
on its own, as far as it takes, and cut the results off. Here they meet the
generator, which slices the secret and has one buffer for both hashes, at every
length of the output.
-/

namespace TlsKeys

theorem halves_isPrefix (secret : Bytes) : (halves secret).1 <+: secret :=
  List.take_prefix _ secret

theorem halves_isSuffix (secret : Bytes) : (halves secret).2 <:+ secret :=
  List.drop_suffix _ secret

theorem length_halves (secret : Bytes) :
    (halves secret).1.length = (secret.length + 1) / 2 ∧
      (halves secret).2.length = (secret.length + 1) / 2 := by
  simp only [halves, halfLength, List.length_take, List.length_drop]
  omega

theorem Buffer.bytes_write_whole {dest : Buffer} {source : Bytes}
    (whole : source.length = dest.bytes.length) : (dest.write 0 source).bytes = source := by
  have fits : 0 + source.length ≤ dest.bytes.length := by omega
  change Bytes.overlayAt 0 source dest.bytes = source
  rw [Bytes.overlayAt_eq_append fits, Nat.zero_add, whole, List.drop_length, List.take_zero,
    List.nil_append, List.append_nil]

/-- The slices of a secret are the halves that the formulas name. -/
theorem halves_eq (secret : Bytes) :
    halves secret = (Prf.firstHalf secret, Prf.lastHalf secret) := by
  rw [Prf.lastHalf, List.take_reverse, List.reverse_reverse]
  rfl

namespace Prf

theorem output_eq_xor (secret label seed : Bytes) (count : Nat) :
    output secret label seed count =
      Bytes.xor (expansion .md5 (halves secret).1 (label ++ seed) count)
        (expansion .sha1 (halves secret).2 (label ++ seed) count) := by
  rw [output, halves_eq]

theorem output_eq_streamBytes (secret label seed : Bytes) (count : Nat) :
    output secret label seed count =
      streamBytes (halves secret).1 (halves secret).2 (label ++ seed) 0 count := by
  rw [output_eq_xor, xor_expansion]

theorem fill_eq_ok (out : Buffer) (secret label seed : Bytes) :
    ∃ filled, fill out secret label seed = .ok filled ∧
      filled.bytes = output secret label seed out.bytes.length := by
  refine ⟨out.write 0 ((KeyStream.ofSecret secret (label ++ seed)).read out.bytes.length).1, ?_, ?_⟩
  · change ((Generator.fill.into out).on (.ready (.ofSecret secret (label ++ seed)))).1 = _
    rw [Call.on_into, Generator.on_fill_ready]
  · rw [KeyStream.ofSecret_eq_atPosition, KeyStream.read_atPosition, output_eq_streamBytes]
    exact Buffer.bytes_write_whole (length_streamBytes ..)

/-- For every length of the buffer and whatever stood in it, a fill succeeds, and writes the
exclusive or of both expansions, each of its half of the secret on its own. -/
theorem fill_eq_xor_expansions (out : Buffer) (secret label seed : Bytes) :
    ∃ filled first last,
      fill out secret label seed = .ok filled ∧
      first <+: secret ∧ last <:+ secret ∧
      first.length = (secret.length + 1) / 2 ∧ last.length = (secret.length + 1) / 2 ∧
      filled.bytes.length = out.bytes.length ∧
      filled.bytes = Bytes.xor (expansion .md5 first (label ++ seed) out.bytes.length)
        (expansion .sha1 last (label ++ seed) out.bytes.length) := by
  obtain ⟨filled, accepted, bytes⟩ := fill_eq_ok out secret label seed
  obtain ⟨firstLength, lastLength⟩ := length_halves secret
  refine ⟨filled, (halves secret).1, (halves secret).2, accepted, halves_isPrefix secret,
    halves_isSuffix secret, firstLength, lastLength, ?_, ?_⟩
  · rw [bytes, output_eq_streamBytes, length_streamBytes]
  · rw [bytes, output_eq_xor]

end Prf

end TlsKeys
