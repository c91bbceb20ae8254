import TlsKeys.Prf.Expansion
import TlsKeys.Prf.Formula

/-!
The pseudorandom function as a byte stream that is read in any cut.

The stream is computed 80 bytes at a time, a length that both block lengths
divide: five MD5 blocks are written, and four SHA-1 blocks are combined into
them. The buffer is filled when the stream starts, and again only when a byte
is asked for and none is left.
-/

namespace TlsKeys

/-- Half a length, rounded up. -/
def halfLength (length : Nat) : Nat :=
  (length + 1) / 2

/-- A secret cut for the two hashes. The halves of an odd secret share its middle byte. -/
def halves (secret : Bytes) : Bytes × Bytes :=
  let half := halfLength secret.length
  (secret.take half, secret.drop (secret.length - half))

structure KeyStream where
  md5 : Expansion .md5
  sha1 : Expansion .sha1
  seed : Bytes
  buffer : Bytes
  /-- The number of bytes of the buffer that have been delivered. -/
  cursor : Nat
  deriving DecidableEq

namespace KeyStream

instance : Copyable KeyStream where
  copy stream :=
    { md5 := Copyable.copy stream.md5
      sha1 := Copyable.copy stream.sha1
      seed := stream.seed
      buffer := stream.buffer
      cursor := stream.cursor }
  copy_eq stream := by simp only [Copyable.copy_eq]

def bufferLength : Nat := 80

theorem outputLength_dvd_bufferLength (hash : Hash) : hash.outputLength ∣ bufferLength := by
  cases hash <;> decide

def refill (stream : KeyStream) : KeyStream :=
  let (written, md5) := stream.md5.extend stream.seed .replace stream.buffer
  let (combined, sha1) := stream.sha1.extend stream.seed .exclusiveOr written
  { stream with md5, sha1, buffer := combined, cursor := 0 }

def start (md5 : Expansion .md5) (sha1 : Expansion .sha1) (seed : Bytes) : KeyStream :=
  refill
    { md5 := md5.restart seed
      sha1 := sha1.restart seed
      seed
      buffer := List.replicate bufferLength 0
      cursor := bufferLength }

def expansions (secret : Bytes) : Expansion .md5 × Expansion .sha1 :=
  let (first, last) := halves secret
  (Expansion.ofKey .md5 first, Expansion.ofKey .sha1 last)

def ofSecret (secret seed : Bytes) : KeyStream :=
  let (md5, sha1) := expansions secret
  start md5 sha1 seed

@[simp] theorem length_buffer_refill (stream : KeyStream) :
    stream.refill.buffer.length = stream.buffer.length := by
  simp [refill]

@[simp] theorem length_buffer_start (md5 : Expansion .md5) (sha1 : Expansion .sha1) (seed : Bytes) :
    (start md5 sha1 seed).buffer.length = bufferLength := by
  rw [start, length_buffer_refill]
  exact List.length_replicate

@[simp] theorem cursor_refill (stream : KeyStream) : stream.refill.cursor = 0 := rfl

/-- The stream with a byte left in its buffer. -/
def prepare (stream : KeyStream) : KeyStream :=
  if stream.cursor < bufferLength then stream else stream.refill

theorem prepare_of_lt {stream : KeyStream} (left : stream.cursor < bufferLength) :
    stream.prepare = stream := if_pos left

theorem cursor_prepare_lt (stream : KeyStream) : stream.prepare.cursor < bufferLength := by
  unfold prepare
  split
  · assumption
  · exact Nat.zero_lt_succ 79

@[simp] theorem length_buffer_prepare (stream : KeyStream) :
    stream.prepare.buffer.length = stream.buffer.length := by
  rw [prepare]
  split
  · rfl
  · exact stream.length_buffer_refill

/-- The next `count` bytes, as much at a time as the buffer has left. -/
def read (stream : KeyStream) (count : Nat) : Bytes × KeyStream :=
  if count = 0 then ([], stream)
  else
    let ready := stream.prepare
    let now := min (bufferLength - ready.cursor) count
    let (rest, last) := read { ready with cursor := ready.cursor + now } (count - now)
    ((ready.buffer.drop ready.cursor).take now ++ rest, last)
termination_by count
decreasing_by
  have := stream.cursor_prepare_lt
  omega

@[simp] theorem read_zero (stream : KeyStream) : stream.read 0 = ([], stream) := by
  simp [read]

theorem read_pos {stream : KeyStream} {count : Nat} (positive : 0 < count) :
    stream.read count =
      let ready := stream.prepare
      let now := min (bufferLength - ready.cursor) count
      let (rest, last) := read { ready with cursor := ready.cursor + now } (count - now)
      ((ready.buffer.drop ready.cursor).take now ++ rest, last) := by
  rw [read, if_neg (by omega)]

@[simp] theorem length_buffer_read (stream : KeyStream) (count : Nat) :
    (stream.read count).2.buffer.length = stream.buffer.length := by
  induction stream, count using read.induct with
  | case1 stream => rw [read_zero]
  | case2 stream count some ready now _ _ _ ih =>
    rw [read_pos (Nat.pos_of_ne_zero some)]
    exact ih.trans stream.length_buffer_prepare

end KeyStream

end TlsKeys
