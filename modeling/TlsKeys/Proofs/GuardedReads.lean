import Mathlib.Logic.Relation
import TlsKeys.Proofs.GeneratorCalls
import TlsKeys.Proofs.Guards

/-!
Every guard holds, and every read comes to an end.

A read goes on pass by pass, and each pass copies as much as the buffer of the
stream has left, or as is still missing. After the test for a refill the buffer
has a byte left, so a pass copies at least one byte, and never more than both
sides have room for (`exists_inRange`). So the guards of a pass hold, what is
still missing becomes less, and after the last pass all is as if the stream had
been read at once (`Sound.exists_finished`).
-/

namespace TlsKeys

/-- A read in progress. -/
structure Reading where
  stream : KeyStream
  out : Bytes
  /-- The number of bytes of `out` that have been written. -/
  count : Nat

namespace Reading

open KeyStream (bufferLength)

def start (stream : KeyStream) (out : Bytes) : Reading where
  stream
  out
  count := 0

/-- Bytes are still missing. -/
def More (reading : Reading) : Prop :=
  reading.count < reading.out.length

/-- The stream after the test for a refill. -/
def ready? (reading : Reading) : Option KeyStream :=
  if bufferLength ≤ reading.stream.cursor then reading.stream.refill? else some reading.stream

def pass? (reading : Reading) : Option Reading := do
  let ready ← reading.ready?
  let left ← difference? bufferLength ready.cursor
  let missing ← difference? reading.out.length reading.count
  let now := min left missing
  let target ← Bytes.slice? reading.out reading.count (reading.count + now)
  let source ← Bytes.slice? ready.buffer ready.cursor (ready.cursor + now)
  let copied ← Bytes.copy? target source
  return {
    stream := { ready with cursor := ready.cursor + now }
    out := Bytes.overlayAt reading.count copied reading.out
    count := reading.count + now }

/-- One pass of the loop leads from `reading` to `next`. -/
def Next (reading next : Reading) : Prop :=
  reading.More ∧ reading.pass? = some next

/-- What holds inside a pass that copies `now` bytes from the stream `ready`. -/
structure InRange (reading : Reading) (ready : KeyStream) (now : Nat) : Prop where
  prepared : reading.ready? = some ready
  amount : now = min (bufferLength - ready.cursor) (reading.out.length - reading.count)
  cursor_lt : ready.cursor < bufferLength
  source_le : ready.cursor + now ≤ bufferLength
  target_le : reading.count + now ≤ reading.out.length
  positive : 1 ≤ now

/-- What holds before and after every pass. -/
structure Sound (reading : Reading) : Prop where
  whole : reading.stream.buffer.length = bufferLength
  count_le : reading.count ≤ reading.out.length

/-- The bytes and the stream that the read comes to, if the rest is read at once. -/
def outcome (reading : Reading) : Bytes × KeyStream :=
  let (bytes, left) := reading.stream.read (reading.out.length - reading.count)
  (reading.out.take reading.count ++ bytes, left)

/-- The reading after a pass that copies `now` bytes from the stream `ready`. -/
def advance (reading : Reading) (ready : KeyStream) (now : Nat) : Reading where
  stream := { ready with cursor := ready.cursor + now }
  out := Bytes.overlayAt reading.count ((ready.buffer.drop ready.cursor).take now) reading.out
  count := reading.count + now

variable {reading later : Reading} {ready : KeyStream} {now : Nat}

theorem ready?_eq_some (reading : Reading) : reading.ready? = some reading.stream.prepare := by
  by_cases left : reading.stream.cursor < bufferLength
  · rw [ready?, if_neg (Nat.not_le_of_lt left), KeyStream.prepare, if_pos left]
  · rw [ready?, if_pos (Nat.le_of_not_lt left), KeyStream.prepare, if_neg left,
      KeyStream.refill?_eq_some]

theorem exists_inRange (more : reading.More) : ∃ ready now, reading.InRange ready now := by
  have left := reading.stream.cursor_prepare_lt
  have missing : reading.count < reading.out.length := more
  refine ⟨reading.stream.prepare, _, {
    prepared := reading.ready?_eq_some
    amount := rfl
    cursor_lt := left
    source_le := ?_
    target_le := ?_
    positive := ?_ }⟩ <;> omega

theorem length_out_advance : (reading.advance ready now).out.length = reading.out.length :=
  Bytes.length_overlayAt ..

theorem outcome_of_not_more (done : ¬ reading.More) :
    reading.outcome = (reading.out, reading.stream) := by
  have all : reading.out.length ≤ reading.count := Nat.le_of_not_lt done
  simp only [outcome, Nat.sub_eq_zero_of_le all, KeyStream.read_zero, List.append_nil,
    List.take_of_length_le all]

namespace InRange

variable (range : reading.InRange ready now)

include range

theorem eq_prepare : ready = reading.stream.prepare :=
  Option.some.inj (range.prepared.symm.trans reading.ready?_eq_some)

theorem length_buffer (sound : reading.Sound) : ready.buffer.length = bufferLength := by
  rw [range.eq_prepare, KeyStream.length_buffer_prepare, sound.whole]

theorem length_source (sound : reading.Sound) :
    ((ready.buffer.drop ready.cursor).take now).length = now := by
  have whole := range.length_buffer sound
  have inside := range.source_le
  rw [List.length_take, List.length_drop]
  omega

theorem pass?_eq_some (sound : reading.Sound) :
    reading.pass? = some (reading.advance ready now) := by
  have left := Nat.le_of_lt range.cursor_lt
  have inside : ready.cursor + now ≤ ready.buffer.length := by
    rw [range.length_buffer sound]
    exact range.source_le
  have target := Bytes.slice?_of_le (Nat.le_add_right reading.count now) range.target_le
  have source := Bytes.slice?_of_le (Nat.le_add_right ready.cursor now) inside
  rw [Nat.add_sub_cancel_left] at target source
  have same : ((ready.buffer.drop ready.cursor).take now).length =
      ((reading.out.drop reading.count).take now).length := by
    have room := range.target_le
    rw [range.length_source sound, List.length_take, List.length_drop]
    omega
  simp only [pass?, range.prepared, difference?_of_le left, difference?_of_le sound.count_le,
    ← range.amount, target, source, Bytes.copy?_of_length_eq same, Option.bind_eq_bind,
    Option.bind_some]
  rfl

theorem sound_advance (sound : reading.Sound) : (reading.advance ready now).Sound where
  whole := range.length_buffer sound
  count_le := by
    rw [length_out_advance]
    exact range.target_le

/-- A pass takes over a part of the rest, and what the read comes to stays the same. -/
theorem outcome_advance (sound : reading.Sound) :
    (reading.advance ready now).outcome = reading.outcome := by
  have room := range.target_le
  have missing : 0 < reading.out.length - reading.count := by
    have positive := range.positive
    omega
  have rest : reading.out.length - (reading.count + now) =
      reading.out.length - reading.count - now := by omega
  have source := range.length_source sound
  have written : (reading.advance ready now).out.take (reading.count + now) =
      reading.out.take reading.count ++ (ready.buffer.drop ready.cursor).take now := by
    rw [advance, Bytes.overlayAt_eq_append (by rw [source]; exact room)]
    apply List.take_left'
    rw [List.length_append, List.length_take, source, Nat.min_eq_left sound.count_le]
  simp only [outcome, length_out_advance, KeyStream.read_pos missing, ← range.eq_prepare,
    ← range.amount]
  rw [← List.append_assoc, ← written, ← rest]
  rfl

end InRange

namespace Sound

variable (sound : reading.Sound)

include sound

theorem exists_next (more : reading.More) :
    ∃ next, reading.Next next ∧ next.Sound ∧ next.out.length = reading.out.length ∧
      reading.count < next.count ∧ next.outcome = reading.outcome := by
  obtain ⟨ready, now, range⟩ := exists_inRange more
  exact ⟨reading.advance ready now, ⟨more, range.pass?_eq_some sound⟩, range.sound_advance sound,
    length_out_advance, Nat.lt_add_of_pos_right range.positive, range.outcome_advance sound⟩

theorem of_next (step : reading.Next later) : later.Sound := by
  obtain ⟨more, passed⟩ := step
  obtain ⟨other, ⟨_, same⟩, sound, _⟩ := sound.exists_next more
  cases Option.some.inj (passed.symm.trans same)
  exact sound

theorem of_passes (passes : Relation.ReflTransGen Next reading later) : later.Sound := by
  induction passes with
  | refl => exact sound
  | tail _ step ih => exact ih.of_next step

/-- The loop comes to an end, with the bytes and the stream of one read. -/
theorem exists_finished :
    ∃ last, Relation.ReflTransGen Next reading last ∧ ¬ last.More ∧
      (last.out, last.stream) = reading.outcome := by
  -- Every pass makes what is missing less.
  induction amount : reading.out.length - reading.count using Nat.strongRecOn
    generalizing reading with
  | ind missing ih =>
    by_cases more : reading.More
    · obtain ⟨next, step, soundNext, length, further, same⟩ := sound.exists_next more
      have less : next.out.length - next.count < missing := by
        have begun : reading.count < reading.out.length := more
        omega
      obtain ⟨last, passes, done, result⟩ := ih _ less soundNext rfl
      exact ⟨last, .head step passes, done, result.trans same⟩
    · exact ⟨reading, .refl, more, (outcome_of_not_more more).symm⟩

end Sound

variable {stream : KeyStream}

theorem sound_start (whole : stream.buffer.length = bufferLength) (out : Bytes) :
    (start stream out).Sound where
  whole
  count_le := Nat.zero_le _

theorem outcome_start (stream : KeyStream) (out : Bytes) :
    (start stream out).outcome = stream.read out.length := by
  simp only [outcome, start, List.take_zero, List.nil_append, Nat.sub_zero]

end Reading

namespace KeyStream

/-- Each pass of a read of the stream is in range, and the passes come to an end, which is that of
one read. -/
structure Readable (stream : KeyStream) (out : Bytes) : Prop where
  inRange {reading : Reading} :
    Relation.ReflTransGen Reading.Next (.start stream out) reading → reading.More →
    (∃ ready now, reading.InRange ready now) ∧ ∃ next, reading.Next next
  finished :
    ∃ last, Relation.ReflTransGen Reading.Next (.start stream out) last ∧ ¬ last.More ∧
      (last.out, last.stream) = stream.read out.length

theorem readable {stream : KeyStream} (whole : stream.buffer.length = bufferLength)
    (out : Bytes) : stream.Readable out where
  inRange passes more := by
    have sound := (Reading.sound_start whole out).of_passes passes
    obtain ⟨next, step, _⟩ := sound.exists_next more
    exact ⟨Reading.exists_inRange more, next, step⟩
  finished := by
    rw [← Reading.outcome_start]
    exact (Reading.sound_start whole out).exists_finished

end KeyStream

/-- A call that reads into a buffer, by the passes of the loop. -/
inductive GuardedRead (offset length : UInt64) :
    Generator × Buffer → Except Failure Unit × Generator × Buffer → Prop where
  | uninitialized {dest} :
      GuardedRead offset length (.uninitialized, dest)
        (.error .notInitialized, .uninitialized, dest)
  | refused {stream dest failure} :
      Region.check dest.size offset length = .error failure →
      GuardedRead offset length (.ready stream, dest) (.error failure, .ready stream, dest)
  | finished {stream dest region target last} :
      Region.check dest.size offset length = .ok region →
      dest.slice? region = some target →
      Relation.ReflTransGen Reading.Next (.start stream target) last → ¬ last.More →
      GuardedRead offset length (.ready stream, dest)
        (.ok (), .ready last.stream, dest.write region.start.toNat last.out)

namespace Generator

open KeyStream (bufferLength)

theorem guardedRead_ready {stream : KeyStream} (whole : stream.buffer.length = bufferLength)
    (dest : Buffer) (offset length : UInt64) :
    GuardedRead offset length (.ready stream, dest)
      ((readInto offset length).on (.ready stream, dest)) := by
  rw [on_readInto_ready]
  cases checked : Region.check dest.size offset length with
  | error failure => exact .refused checked
  | ok region =>
    obtain ⟨last, passes, done, result⟩ := (KeyStream.readable whole (dest.slice region)).finished
    rw [Buffer.length_slice checked, ← Region.length_of_check checked] at result
    simp only [← result]
    exact .finished checked (Buffer.slice?_of_check checked) passes done

theorem guardedRead_of_reached {acts : List (Family.Act Op)} {index : Nat} {generator : Generator}
    (reached : (Family.after step uninitialized acts)[index]? = some generator)
    (dest : Buffer) (offset length : UInt64) :
    GuardedRead offset length (generator, dest)
      ((readInto offset length).on (generator, dest)) := by
  cases generator with
  | uninitialized => exact .uninitialized
  | ready stream => exact guardedRead_ready (whole_of_reached reached) dest offset length

end Generator

open KeyStream (bufferLength) in
/-- No guard ever fails, and every read comes to an end. A tag is as long as it is said to be, and
its length divides that of the buffer. Expansions, fills, halves, handshake hashes and appended
regions are what they are without guards, whatever they are given. In a stream that has just been
started, or in a generator that was reached by calls, each pass of a read is within its bounds and
copies something, and all passes together are one read of the stream, into whichever region of a
buffer the call has asked for. -/
theorem guards_hold :
    (∀ (hash : Hash) (mac : Mac hash) (data : Bytes), mac.hasKey = true →
      ∃ tag, Mac.tag.on mac = (.ok tag, mac) ∧
        Mac.step .tagLength mac = (.number tag.length, mac) ∧
        tag.length = hash.outputLength ∧ tag.length = (hash.digest data).length ∧
        0 < tag.length ∧ tag.length ∣ bufferLength) ∧
      (∀ (hash : Hash) (expansion : Expansion hash) (seed : Bytes) (mode : Mode) (buffer : Bytes),
        Expansion.blockLength hash ≠ 0 ∧
        (∀ piece ∈ Bytes.pieces (Expansion.blockLength hash) buffer, ∀ current : Expansion hash,
          ∃ part, Bytes.slice? (current.nextBlock seed).1 0 piece.length = some part ∧
            part.length = piece.length) ∧
        expansion.extend? seed mode buffer = some (expansion.extend seed mode buffer)) ∧
      (∀ stream : KeyStream, stream.refill? = some stream.refill) ∧
      (∀ secret, halves? secret = some (halves secret)) ∧
      (∀ transcript, handshakeHash? transcript = some (handshakeHash transcript).val) ∧
      (∀ (hash : Hash) (mac : Mac hash) (bytes : Buffer) (offset length : UInt64),
        mac.append? bytes offset length = some ((Mac.append bytes offset length).on mac)) ∧
      (∀ md5 sha1 seed out, (KeyStream.start md5 sha1 seed).Readable out) ∧
      ∀ (acts : List (Family.Act Generator.Op)) (index : Nat) (generator : Generator),
        (Family.after Generator.step .uninitialized acts)[index]? = some generator →
        (∀ stream out, generator = .ready stream → stream.Readable out) ∧
          ∀ dest offset length,
            GuardedRead offset length (generator, dest)
              ((Generator.readInto offset length).on (generator, dest)) := by
  refine ⟨fun hash mac data keyed => ?_, fun hash expansion seed mode buffer => ⟨?_, ?_, ?_⟩,
    KeyStream.refill?_eq_some, halves?_eq_some, handshakeHash?_eq_some,
    fun _ mac bytes offset length => mac.append?_eq_some bytes offset length,
    fun md5 sha1 seed => KeyStream.readable (KeyStream.length_buffer_start md5 sha1 seed),
    fun acts index generator reached => ⟨fun stream out isReady => ?_,
      Generator.guardedRead_of_reached reached⟩⟩
  · obtain ⟨tag, tagged, length⟩ := Mac.exists_tag keyed
    refine ⟨tag, tagged, ?_⟩
    rw [Mac.step, Mac.tagLength_eq_outputLength, Hash.length_digest, length]
    exact ⟨rfl, rfl, rfl, hash.outputLength_pos, KeyStream.outputLength_dvd_bufferLength hash⟩
  · exact Nat.ne_of_gt (Expansion.blockLength_pos hash)
  · intro piece present current
    obtain ⟨part, sliced, same, _⟩ :=
      current.exists_slice?_nextBlock seed (Bytes.length_le_of_mem_pieces present)
    exact ⟨part, sliced, same⟩
  · exact expansion.extend?_eq_some seed mode buffer
  · subst isReady
    exact KeyStream.readable (Generator.whole_of_reached reached) out

open KeyStream (bufferLength) in
theorem guards_hold_last_byte_of_fill :
    let acts := [.new, .call 0 (.configure (.ofBoth [1, 2, 3] [4])), .copy 0,
      .call 1 (.read (.take 79))]
    let stream := ((KeyStream.ofSecret [1, 2, 3] [4]).read 79).2
    let mac : Mac .sha1 := .keyed (Hmac.ofKey .sha1 [5])
    let reading := Reading.start stream (List.replicate 81 0)
    let dest := Buffer.zeros 8
    (Family.after Generator.step .uninitialized acts)[1]? = some (.ready stream) ∧
      (∃ tag, Mac.tag.on mac = (.ok tag, mac) ∧ tag.length = (Hash.sha1.digest [6]).length ∧
        tag.length ∣ bufferLength) ∧
      (∃ part, Bytes.slice? ((Expansion.ofKey .sha1 [7]).nextBlock [8]).1 0 3 = some part ∧
        part.length = 3) ∧
      (∃ ready now, reading.InRange ready now) ∧
      (∃ last, Relation.ReflTransGen Reading.Next reading last ∧ ¬ last.More ∧
        (last.out, last.stream) = stream.read 81) ∧
      GuardedRead 0xffffffffffffffff 2 (.ready stream, dest)
        ((Generator.readInto 0xffffffffffffffff 2).on (.ready stream, dest)) := by
  intro acts stream mac reading dest
  have started : (Family.after Generator.step .uninitialized (acts.take 2))[0]? =
      some (.ready (.ofSecret [1, 2, 3] [4])) := rfl
  have copied := Family.getElem?_after_copy started rfl
  have reached := Family.getElem?_after_call copied (.read (.take 79))
  rw [Generator.step, Generator.Read.left_take (show (79 : UInt64).toNat = 79 from rfl)] at reached
  obtain ⟨tags, expansions, _, _, _, _, _, reads⟩ := guards_hold
  obtain ⟨tag, tagged, _, _, length, _, divides⟩ := tags .sha1 mac [6] rfl
  obtain ⟨_, parts, _⟩ := expansions .sha1 (.ofKey .sha1 [7]) [8] .replace (List.replicate 23 0)
  have short : List.replicate 3 0 ∈ Bytes.pieces 20 (List.replicate 23 0) := by decide
  obtain ⟨streams, regions⟩ := reads acts 1 (.ready stream) reached
  have readable := streams stream (List.replicate 81 0) rfl
  have more : reading.More := by
    change 0 < 81
    decide
  exact ⟨reached, ⟨tag, tagged, length, divides⟩, parts _ short (.ofKey .sha1 [7]),
    (readable.inRange .refl more).1, readable.finished, regions dest 0xffffffffffffffff 2⟩

end TlsKeys
