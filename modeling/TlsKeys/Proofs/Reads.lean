import TlsKeys.Generator.Script
import TlsKeys.Proofs.Output

/-!
Ten ways to read, and one cursor.

Each read has a form: how many bytes it asks for, where they go, and how its
reply shows them. A read that has room for its bytes is one read of the stream
(`step_of_fits`), and a read that has none is refused and leaves the stream
where it was (`step_of_not_fits`).
-/

namespace TlsKeys.Generator

section Position

variable (first last seed : Bytes) (position : Nat)

theorem on_readInto_atPosition {dest : Buffer} {offset length : UInt64}
    (fits : offset.toNat + length.toNat ≤ dest.bytes.length) :
    (readInto offset length).on (.ready (.atPosition first last seed position), dest) =
      (.ok (), .ready (.atPosition first last seed (position + length.toNat)),
        dest.write offset.toNat (Prf.streamBytes first last seed position length.toNat)) := by
  obtain ⟨region, accepted, start, amount⟩ := Buffer.check_of_fits fits
  simp only [on_readInto_ready, accepted, start, amount, KeyStream.read_atPosition]

theorem on_take_atPosition (count : UInt64) :
    (take count).on (.ready (.atPosition first last seed position)) =
      (.ok (Prf.streamBytes first last seed position count.toNat),
        .ready (.atPosition first last seed (position + count.toNat))) := by
  have whole : (Prf.streamBytes first last seed position count.toNat).length =
      (Buffer.zeros count).bytes.length := by
    rw [Prf.length_streamBytes, Buffer.length_zeros]
  rw [on_take_ready, KeyStream.read_atPosition, Buffer.bytes_write_whole whole]

theorem source_collect (count : UInt64) :
    (ByteSource.collect count : Call Generator Bytes) = take count := rfl

end Position

namespace Read

/-- What a read asks for, whichever way it is asked. -/
inductive Form where
  | byte
  | plain (count : UInt64)
  | region (dest : Buffer) (offset length : UInt64)
  | word32
  | word64
  deriving DecidableEq

namespace Form

def size : Form → Nat
  | byte => 1
  | plain count => count.toNat
  | region _ _ length => length.toNat
  | word32 => 4
  | word64 => 8

def Fits : Form → Prop
  | region dest offset length => offset.toNat + length.toNat ≤ dest.bytes.length
  | _ => True

theorem eq_region_of_not_fits {form : Form} (outside : ¬ form.Fits) :
    ∃ dest offset length, form = region dest offset length := by
  cases form with
  | region dest offset length => exact ⟨dest, offset, length, rfl⟩
  | _ => exact absurd trivial outside

instance (form : Form) : Decidable form.Fits := by
  unfold Fits
  split <;> infer_instance

/-- The number of bytes delivered: all that are asked for if there is room, and else none. -/
def amount (form : Form) : Nat :=
  if form.Fits then form.size else 0

def reply (bytes : Bytes) : Form → Reply
  | byte => .number (bytes.headD 0).toNat
  | plain _ => .bytes bytes
  | region dest offset _ => .written (dest.write offset.toNat bytes)
  | word32 => .word (Bytes.toNatLittle bytes).toUInt32.toUInt64
  | word64 => .word (Bytes.toNatLittle bytes).toUInt64

def refuse (failure : Failure) : Form → Reply
  | region dest _ _ => .refused dest failure
  | _ => .failed failure

/-- The bytes that a reply shows. A word shows the bytes that it is made of, the least
significant first, and a failure shows none. -/
def delivered : Form → Reply → Bytes
  | byte, .number value => [value.toUInt8]
  | plain _, .bytes bytes => bytes
  | region _ offset length, .written dest => (dest.bytes.drop offset.toNat).take length.toNat
  | word32, .word value => Bytes.ofNatLittle 4 value.toNat
  | word64, .word value => Bytes.ofNatLittle 8 value.toNat
  | _, _ => []

@[simp] theorem delivered_refuse (form : Form) (failure : Failure) :
    form.delivered (form.refuse failure) = [] := by
  cases form <;> rfl

theorem bytes_write_region {dest : Buffer} {offset length : UInt64} {bytes : Bytes}
    (fits : (region dest offset length).Fits) (exact : bytes.length = length.toNat) :
    (dest.write offset.toNat bytes).bytes =
      dest.bytes.take offset.toNat ++ bytes ++ dest.bytes.drop (offset.toNat + length.toNat) := by
  rw [← exact]
  apply Bytes.overlayAt_eq_append
  rw [exact]
  exact fits

theorem delivered_reply {form : Form} {bytes : Bytes} (fits : form.Fits)
    (exact : bytes.length = form.size) : form.delivered (form.reply bytes) = bytes := by
  cases form with
  | byte =>
    obtain ⟨value, rfl⟩ := List.length_eq_one_iff.mp exact
    simp [reply, delivered]
  | plain count => rfl
  | region dest offset length =>
    have before : (dest.bytes.take offset.toNat).length = offset.toNat := by
      rw [List.length_take]
      exact Nat.min_eq_left (Nat.le_trans (Nat.le_add_right _ _) fits)
    have amount : bytes.length = length.toNat := exact
    rw [reply, delivered, bytes_write_region fits amount, List.append_assoc,
      List.drop_left' before, List.take_left' amount]
  | word32 =>
    have bound := Bytes.toNatLittle_lt bytes
    have digits := Bytes.ofNatLittle_toNatLittle bytes
    rw [exact, size] at bound digits
    have value : (Bytes.toNatLittle bytes).toUInt32.toUInt64.toNat = Bytes.toNatLittle bytes := by
      rw [UInt32.toNat_toUInt64, Nat.toUInt32_eq, UInt32.toNat_ofNat']
      exact Nat.mod_eq_of_lt bound
    rw [reply, delivered, value, digits]
  | word64 =>
    have bound := Bytes.toNatLittle_lt bytes
    have digits := Bytes.ofNatLittle_toNatLittle bytes
    rw [exact, size] at bound digits
    have value : (Bytes.toNatLittle bytes).toUInt64.toNat = Bytes.toNatLittle bytes := by
      rw [Nat.toUInt64_eq, UInt64.toNat_ofNat']
      exact Nat.mod_eq_of_lt bound
    rw [reply, delivered, value, digits]

theorem bytes_region {dest : Buffer} {offset length : UInt64} {bytes : Bytes}
    (fits : (region dest offset length).Fits) (exact : bytes.length = length.toNat) :
    (dest.write offset.toNat bytes).bytes =
      dest.bytes.take offset.toNat ++
        (region dest offset length).delivered (.written (dest.write offset.toNat bytes)) ++
          dest.bytes.drop (offset.toNat + length.toNat) := by
  have shown : (region dest offset length).delivered (.written _) = bytes :=
    delivered_reply fits exact
  rw [shown]
  exact bytes_write_region fits exact

end Form

def form : Read → Form
  | .byte => .byte
  | .take count => .plain count
  | .into dest offset length => .region dest offset length
  | .fill dest => .region dest 0 dest.size
  | .word32 => .word32
  | .word64 => .word64
  | .source .byte => .byte
  | .source (.into dest offset length) => .region dest offset length
  | .source (.fill dest) => .region dest 0 dest.size
  | .source (.collect count) => .plain count

theorem step_of_region {read : Read} {dest : Buffer} {offset length : UInt64}
    (region : read.form = .region dest offset length) (generator : Generator) :
    read.step generator = Reply.ofWrite dest (readInto offset length) generator := by
  rcases read with _ | _ | _ | _ | _ | _ | (_ | _ | _ | _) <;> cases region <;> rfl

/-- A read that is not into a region takes as many bytes as it asks for, and shows them in its own
way. -/
theorem exists_take_or_region (read : Read) (generator : Generator) :
    (∃ count : UInt64, count.toNat = read.form.size ∧
      read.step generator = Reply.ofCall (read.form.reply ·) (Generator.take count) generator) ∨
    ∃ dest offset length, read.form = .region dest offset length := by
  have shown {Value : Type} (reply : Value → Reply) (count : UInt64) (result : Bytes → Value) :=
    Reply.ofCall_bind_pure reply (Generator.take count) result generator
  rcases read with _ | count | _ | _ | _ | _ | (_ | _ | _ | count)
  case byte => exact .inl ⟨1, rfl, shown _ 1 _⟩
  case take => exact .inl ⟨count, rfl, rfl⟩
  case word32 => exact .inl ⟨4, rfl, shown _ 4 _⟩
  case word64 => exact .inl ⟨8, rfl, shown _ 8 _⟩
  case source.byte => exact .inl ⟨1, rfl, shown _ 1 _⟩
  case source.collect => exact .inl ⟨count, rfl, rfl⟩
  all_goals exact .inr ⟨_, _, _, rfl⟩

theorem left_take {count : UInt64} {amount : Nat} (asked : count.toNat = amount)
    (stream : KeyStream) :
    ((take count).step (ready stream)).2 = ready (stream.read amount).2 := by
  change (Reply.ofCall .bytes (Generator.take count) (ready stream)).2 = _
  rw [Reply.ofCall, on_take_ready, asked]

/-- Whatever it asks for, a read of a generator that has no stream is refused. -/
theorem step_uninitialized (read : Read) :
    read.step uninitialized = (read.form.refuse .notInitialized, uninitialized) := by
  rcases read with _ | _ | _ | _ | _ | _ | (_ | _ | _ | _) <;> rfl

theorem step_of_not_fits {read : Read} {dest : Buffer} {offset length : UInt64}
    (region : read.form = .region dest offset length) (outside : ¬ read.form.Fits)
    (stream : KeyStream) :
    read.step (ready stream) =
      (read.form.refuse (.bounds offset length dest.size), ready stream) := by
  rw [region] at outside
  rw [step_of_region region, Reply.ofWrite, on_readInto_ready, Buffer.check_of_not_fits outside,
    region]
  rfl

section Position

variable (first last seed : Bytes) (position : Nat)

theorem step_of_fits {read : Read} (fits : read.form.Fits) :
    read.step (.ready (.atPosition first last seed position)) =
      (read.form.reply (Prf.streamBytes first last seed position read.form.size),
        .ready (.atPosition first last seed (position + read.form.size))) := by
  rcases read.exists_take_or_region (.ready (.atPosition first last seed position)) with
    ⟨count, size, taken⟩ | ⟨dest, offset, length, region⟩
  · rw [taken, Reply.ofCall, on_take_atPosition, size]
  · rw [region] at fits ⊢
    rw [step_of_region region, Reply.ofWrite, on_readInto_atPosition first last seed position fits]
    rfl

/-- Every read shows the next bytes of the stream, as many as it delivers, and moves on by them. -/
theorem step_atPosition (read : Read) :
    read.form.delivered (read.step (.ready (.atPosition first last seed position))).1 =
        Prf.streamBytes first last seed position read.form.amount ∧
      (read.step (.ready (.atPosition first last seed position))).2 =
        .ready (.atPosition first last seed (position + read.form.amount)) := by
  by_cases fits : read.form.Fits
  · rw [step_of_fits first last seed position fits, Form.amount, if_pos fits]
    exact ⟨Form.delivered_reply fits (Prf.length_streamBytes ..), rfl⟩
  · obtain ⟨dest, offset, length, region⟩ := Form.eq_region_of_not_fits fits
    rw [step_of_not_fits region fits, Form.amount, if_neg fits]
    exact ⟨Form.delivered_refuse .., rfl⟩

theorem bytes_written {read : Read} {dest written : Buffer} {offset length : UInt64}
    (region : read.form = .region dest offset length)
    (accepted : (read.step (.ready (.atPosition first last seed position))).1 = .written written) :
    read.form.Fits ∧ written.bytes = dest.bytes.take offset.toNat ++
      read.form.delivered (.written written) ++
        dest.bytes.drop (offset.toNat + length.toNat) := by
  by_cases fits : read.form.Fits
  · rw [step_of_fits first last seed position fits, region] at accepted
    rw [region] at fits ⊢
    cases accepted
    exact ⟨fits, Form.bytes_region fits (Prf.length_streamBytes ..)⟩
  · rw [step_of_not_fits region fits, region] at accepted
    cases accepted

end Position

end Read

end TlsKeys.Generator
