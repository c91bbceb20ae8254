import TlsKeys.Proofs.ExpansionCalls
import TlsKeys.Prf.KeyStream

/-!
Key streams call by call.

A raw stream is a stream over two raw expansions. A refill extends both over the
buffer and may end with one pass made and the other not, and a read may end with
a part of its bytes written. Over expansions that have a key neither happens.
-/

namespace TlsKeys

structure RawStream where
  md5 : RawExpansion .md5
  sha1 : RawExpansion .sha1
  seed : Bytes
  buffer : Bytes
  cursor : Nat

instance : Copyable RawStream where
  copy stream :=
    { md5 := Copyable.copy stream.md5
      sha1 := Copyable.copy stream.sha1
      seed := stream.seed
      buffer := stream.buffer
      cursor := stream.cursor }
  copy_eq stream := by simp only [Copyable.copy_eq]

def KeyStream.raw (stream : KeyStream) : RawStream where
  md5 := stream.md5.raw
  sha1 := stream.sha1.raw
  seed := stream.seed
  buffer := stream.buffer
  cursor := stream.cursor

namespace RawStream

open KeyStream (bufferLength)

def expansions (secret : Bytes) : Except Failure (RawExpansion .md5 × RawExpansion .sha1) := do
  let (first, last) := halves secret
  let md5 ← RawExpansion.ofKey Mac.md5 first
  let sha1 ← RawExpansion.ofKey Mac.sha1 last
  return (md5, sha1)

theorem expansions_eq_ok (secret : Bytes) :
    expansions secret =
      .ok ((KeyStream.expansions secret).1.raw, (KeyStream.expansions secret).2.raw) := by
  simp only [expansions, RawExpansion.ofKey_eq_ok]
  rfl

/-- A call on the MD5 expansion and the buffer. -/
def onMd5 (call : Call (RawExpansion .md5 × Bytes) Unit) : Call RawStream Unit :=
  Call.zoom (fun stream => (stream.md5, stream.buffer))
    (fun stream (md5, buffer) => { stream with md5, buffer }) call

def onSha1 (call : Call (RawExpansion .sha1 × Bytes) Unit) : Call RawStream Unit :=
  Call.zoom (fun stream => (stream.sha1, stream.buffer))
    (fun stream (sha1, buffer) => { stream with sha1, buffer }) call

def refill : Call RawStream Unit := do
  let stream ← get
  onMd5 (RawExpansion.extend stream.seed .replace)
  onSha1 (RawExpansion.extend stream.seed .exclusiveOr)
  modify fun stream => { stream with cursor := 0 }

theorem on_refill (stream : KeyStream) :
    refill.on stream.raw = (.ok (), stream.refill.raw) := by
  simp only [refill, KeyStream.raw, onMd5, onSha1, Call.on_bind, Call.on_get, Call.on_zoom,
    Call.on_modify, RawExpansion.on_extend, KeyStream.refill]

def start (md5 : RawExpansion .md5) (sha1 : RawExpansion .sha1) (seed : Bytes) :
    Except Failure RawStream := do
  let md5 ← (RawExpansion.restart seed).made md5
  let sha1 ← (RawExpansion.restart seed).made sha1
  refill.made
    { md5
      sha1
      seed
      buffer := List.replicate bufferLength 0
      cursor := bufferLength }

theorem start_eq_ok (md5 : Expansion .md5) (sha1 : Expansion .sha1) (seed : Bytes) :
    start md5.raw sha1.raw seed = .ok (KeyStream.start md5 sha1 seed).raw := by
  have md5Started := Call.made_eq_ok (RawExpansion.on_restart md5 seed)
  have sha1Started := Call.made_eq_ok (RawExpansion.on_restart sha1 seed)
  rw [start, md5Started, sha1Started]
  exact Call.made_eq_ok (on_refill
    { md5 := md5.restart seed
      sha1 := sha1.restart seed
      seed
      buffer := List.replicate bufferLength 0
      cursor := bufferLength })

/-- The number of bytes left in the buffer, which is refilled first if there are none. -/
def demandLeft : Call RawStream { left : Nat // 0 < left } := do
  let stream ← get
  if left : stream.cursor < bufferLength then
    return ⟨bufferLength - stream.cursor, Nat.sub_pos_of_lt left⟩
  else
    refill
    return ⟨bufferLength, Nat.zero_lt_succ 79⟩

theorem on_demandLeft (stream : KeyStream) :
    demandLeft.on stream.raw =
      (.ok ⟨bufferLength - stream.prepare.cursor, Nat.sub_pos_of_lt stream.cursor_prepare_lt⟩,
        stream.prepare.raw) := by
  by_cases left : stream.cursor < bufferLength
  · have same : stream.raw.cursor < bufferLength := left
    simp only [demandLeft, Call.on_bind, Call.on_get, dif_pos same, Call.on_pure,
      KeyStream.prepare_of_lt left]
    rfl
  · have same : ¬ stream.raw.cursor < bufferLength := left
    have prepared : stream.prepare = stream.refill := if_neg left
    simp only [demandLeft, Call.on_bind, Call.on_get, dif_neg same, on_refill, Call.on_pure,
      prepared, KeyStream.cursor_refill, Nat.sub_zero]

/-- Copy the next bytes of the buffer to the place that begins at `start`. -/
def copyTo (start count : Nat) : Call (RawStream × Bytes) Unit :=
  modify fun (stream, out) =>
    ({ stream with cursor := stream.cursor + count },
      Bytes.overlayAt start ((stream.buffer.drop stream.cursor).take count) out)

/-- Write the next bytes over the last `missing` bytes of the buffer, which begin at `start`. -/
def readFrom (start missing : Nat) : Call (RawStream × Bytes) Unit := do
  if missing = 0 then return ()
  else
    let ⟨left, _⟩ ← Call.onFirst demandLeft
    let now := min left missing
    copyTo start now
    readFrom (start + now) (missing - now)
termination_by missing

theorem on_copyTo {stream : KeyStream} (whole : stream.buffer.length = bufferLength) {piece : Bytes}
    (left : piece.length ≤ bufferLength - stream.cursor) (before after : Bytes) :
    (copyTo before.length piece.length).on (stream.raw, before ++ (piece ++ after)) =
      (.ok (), KeyStream.raw { stream with cursor := stream.cursor + piece.length },
        before ++ ((stream.buffer.drop stream.cursor).take piece.length ++ after)) := by
  have same : ((stream.buffer.drop stream.cursor).take piece.length).length = piece.length := by
    rw [List.length_take, List.length_drop, whole, Nat.min_eq_left left]
  rw [copyTo, Call.on_modify, ← Bytes.overlayAt_append same]
  rfl

/-- One pass of the loop copies what the stream has left in its buffer, once that is refilled. -/
theorem on_readFrom_pass {stream : KeyStream} (whole : stream.buffer.length = bufferLength)
    {missing : Nat} (positive : 0 < missing) {piece : Bytes}
    (taken : piece.length = min (bufferLength - stream.prepare.cursor) missing)
    (before after : Bytes) :
    (readFrom before.length missing).on (stream.raw, before ++ (piece ++ after)) =
      let ready := stream.prepare
      let bytes := (ready.buffer.drop ready.cursor).take piece.length
      (readFrom (before.length + piece.length) (missing - piece.length)).on
        (KeyStream.raw { ready with cursor := ready.cursor + piece.length },
          before ++ (bytes ++ after)) := by
  have ready : stream.prepare.buffer.length = bufferLength := by
    rw [KeyStream.length_buffer_prepare, whole]
  have left : piece.length ≤ bufferLength - stream.prepare.cursor := by
    rw [taken]
    exact Nat.min_le_left _ _
  rw [readFrom, if_neg (Nat.ne_of_gt positive)]
  simp only [Call.on_bind, Call.on_onFirst, on_demandLeft, ← taken, on_copyTo ready left]

/-- A read of the rest goes through, and what stands before it stays. -/
theorem on_readFrom {stream : KeyStream} (whole : stream.buffer.length = bufferLength)
    (before rest : Bytes) :
    (readFrom before.length rest.length).on (stream.raw, before ++ rest) =
      let (bytes, last) := stream.read rest.length
      (.ok (), last.raw, before ++ bytes) := by
  induction amount : rest.length using Nat.strongRecOn generalizing stream before rest with
  | ind missing ih =>
    by_cases none : missing = 0
    · subst none
      obtain rfl := List.eq_nil_of_length_eq_zero amount
      rw [readFrom, if_pos rfl, KeyStream.read_zero]
      rfl
    · have positive : 0 < missing := Nat.pos_of_ne_zero none
      have ready : stream.prepare.buffer.length = bufferLength := by
        rw [KeyStream.length_buffer_prepare, whole]
      obtain ⟨now, isMin⟩ : ∃ now, now = min (bufferLength - stream.prepare.cursor) missing :=
        ⟨_, rfl⟩
      have some : 0 < now := by
        have := stream.cursor_prepare_lt
        omega
      obtain ⟨piece, after, rfl, rfl⟩ : ∃ piece after, rest = piece ++ after ∧
          piece.length = now :=
        ⟨rest.take now, rest.drop now, (List.take_append_drop ..).symm, by
          rw [List.length_take]
          omega⟩
      obtain ⟨bytes, copied⟩ : ∃ bytes,
          (stream.prepare.buffer.drop stream.prepare.cursor).take piece.length = bytes := ⟨_, rfl⟩
      have same : bytes.length = piece.length := by
        rw [← copied, List.length_take, List.length_drop, ready]
        omega
      have remains : after.length = missing - piece.length := by
        rw [← amount, List.length_append, Nat.add_sub_cancel_left]
      -- What the pass has copied now stands before the rest, and the rest is read from the stream
      -- that the pass left.
      have onward := @ih _ (Nat.sub_lt positive some)
        { stream.prepare with cursor := stream.prepare.cursor + piece.length }
        ready (before ++ bytes) after remains
      rw [List.length_append, same, List.append_assoc] at onward
      rw [on_readFrom_pass whole positive isMin, KeyStream.read_pos positive]
      simp only [← isMin, copied, onward, List.append_assoc]

def read : Call (RawStream × Bytes) Unit := do
  let (_, out) ← get
  readFrom 0 out.length

theorem on_read {stream : KeyStream} (whole : stream.buffer.length = bufferLength) (out : Bytes) :
    read.on (stream.raw, out) =
      let (bytes, last) := stream.read out.length
      (.ok (), last.raw, bytes) := by
  rw [read, Call.on_bind, Call.on_get]
  exact on_readFrom whole [] out

end RawStream

end TlsKeys
