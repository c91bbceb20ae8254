import TlsKeys.Proofs.InForce
import TlsKeys.Proofs.Scripts

/-!
Scripts of reads against one read.

Callers that share a generator take turns, and a turn is one whole call. So
whatever they do to it is one script, and the script may hold their calls in
any order. The position tells what each read shows (`step_atPosition`), and the
positions of the turns follow one another without a gap, so only the number of
bytes delivered is left of the order and of the sizes of the reads.
-/

namespace TlsKeys

namespace Generator

namespace Read

/-- The bytes that the replies to some reads show, in the order of the reads. -/
def shown : List Read → List Reply → Bytes
  | read :: reads, reply :: replies => read.form.delivered reply ++ shown reads replies
  | _, _ => []

def total : List Read → Nat
  | [] => 0
  | read :: reads => read.form.amount + total reads

theorem total_eq_of_perm {reads others : List Read} (same : reads.Perm others) :
    total reads = total others := by
  induction same with
  | nil => rfl
  | cons read _ ih => rw [total, total, ih]
  | swap first second reads =>
    simp only [total]
    exact Nat.add_left_comm ..
  | trans _ _ before after => exact before.trans after

section Position

variable (first last seed : Bytes) (position : Nat)

/-- A script of reads shows one stretch of the stream. -/
theorem runScript_atPosition (reads : List Read) :
    shown reads (runScript step reads (.ready (.atPosition first last seed position))).1 =
        Prf.streamBytes first last seed position (total reads) ∧
      (runScript step reads (.ready (.atPosition first last seed position))).2 =
        .ready (.atPosition first last seed (position + total reads)) := by
  induction reads generalizing position with
  | nil => exact ⟨rfl, rfl⟩
  | cons read reads ih =>
    obtain ⟨now, moved⟩ := step_atPosition first last seed position read
    obtain ⟨later, left⟩ := ih (position + read.form.amount)
    rw [total, Prf.streamBytes_add, ← Nat.add_assoc]
    constructor
    · rw [runScript_cons, shown, now, moved, later]
    · rw [runScript_cons, moved, left]

theorem succeeded_refuse (form : Form) (failure : Failure) :
    (form.refuse failure).succeeded = false := by
  cases form <;> rfl

theorem succeeded_reply (form : Form) (bytes : Bytes) : (form.reply bytes).succeeded = true := by
  cases form <;> rfl

structure Answered (read : Read) (reply : Reply) : Prop where
  accepted : reply.succeeded = true ↔ read.form.Fits
  /-- The reply shows all the bytes asked for, or none. -/
  amount : (read.form.delivered reply).length = read.form.amount
  /-- Outside its region a buffer stays as it was. -/
  placed : ∀ dest offset length written,
    read.form = .region dest offset length → reply = .written written →
      written.bytes = dest.bytes.take offset.toNat ++ read.form.delivered reply ++
        dest.bytes.drop (offset.toNat + length.toNat)

theorem answered_atPosition (read : Read) :
    read.Answered (read.step (.ready (.atPosition first last seed position))).1 where
  accepted := by
    by_cases fits : read.form.Fits
    · rw [step_of_fits first last seed position fits, succeeded_reply]
      exact ⟨fun _ => fits, fun _ => rfl⟩
    · obtain ⟨dest, offset, length, region⟩ := Form.eq_region_of_not_fits fits
      rw [step_of_not_fits region fits, succeeded_refuse]
      exact ⟨nofun, fun inside => absurd inside fits⟩
  amount := by
    obtain ⟨delivered, _⟩ := step_atPosition first last seed position read
    rw [delivered, Prf.length_streamBytes]
  placed := by
    intro dest offset length written region accepted
    rw [accepted]
    exact (bytes_written first last seed position region accepted).2

end Position

end Read

/-- Callers take turns at a generator, in whatever order, and their reads may be of any kind and
size, some of them refused. Put together, the bytes that they are shown are those of one read of
the total, which comes to the same state, and so does one call for the total, if a call can ask for
so much. -/
theorem turns_eq_take (acts : List (Family.Act Op)) (index : Nat) (stream : KeyStream)
    (reached : (Family.after step uninitialized acts)[index]? = some (ready stream))
    (callers : List (List Read)) (turns : List Read) (interleaved : turns.Perm callers.flatten) :
    let (replies, final) := runScript Read.step turns (ready stream)
    let total := Read.total callers.flatten
    (Read.shown turns replies, final) = ((stream.read total).1, ready (stream.read total).2) ∧
      (∀ count : UInt64, count.toNat = total →
        (take count).on (ready stream) = (.ok (Read.shown turns replies), final)) ∧
      ∀ read reply, (read, reply) ∈ turns.zip replies → read.Answered reply := by
  obtain ⟨history, _, explained⟩ := exists_explained reached
  cases explained with
  | @ready secret seed =>
    obtain ⟨shown, left⟩ := Read.runScript_atPosition (halves secret).1 (halves secret).2 seed
      (deliveredSinceStart history) turns
    rw [Read.total_eq_of_perm interleaved] at shown left
    refine ⟨?_, ?_, ?_⟩
    · rw [KeyStream.read_atPosition, shown, left]
    · intro count asked
      rw [on_take_atPosition, shown, left, asked]
    · intro read reply asked
      -- Every turn finds the generator at a position of the same stream.
      have moves (read : Read) (generator : Generator)
          (placed : ∃ position, generator =
            .ready (.atPosition (halves secret).1 (halves secret).2 seed position)) :
          ∃ position, (read.step generator).2 =
            .ready (.atPosition (halves secret).1 (halves secret).2 seed position) := by
        obtain ⟨position, rfl⟩ := placed
        exact ⟨_, (Read.step_atPosition _ _ seed position read).2⟩
      obtain ⟨_, ⟨position, rfl⟩, rfl⟩ := exists_of_mem_zip_runScript moves ⟨_, rfl⟩ asked
      exact Read.answered_atPosition _ _ seed position read

theorem turns_eq_take_two_callers :
    let acts := [.new, .call 0 (.configure (.ofBoth [1, 2, 3] [4]))]
    let stream := KeyStream.ofSecret [1, 2, 3] [4]
    let dest := Buffer.zeros 8
    let callers : List (List Read) :=
      [[.take 79, .word32], [.into dest 7 2, .source .byte, .into dest 7 1]]
    let turns := [.into dest 7 2, .take 79, .source .byte, .word32, .into dest 7 1]
    (Family.after step uninitialized acts)[0]? = some (ready stream) ∧
      turns.Perm callers.flatten ∧ (85 : UInt64).toNat = Read.total callers.flatten ∧
      let (replies, final) := runScript Read.step turns (ready stream)
      (Read.shown turns replies, final) = ((stream.read 85).1, ready (stream.read 85).2) ∧
        (take 85).on (ready stream) = (.ok (Read.shown turns replies), final) ∧
        ∀ read reply, (read, reply) ∈ turns.zip replies → read.Answered reply := by
  intro acts stream dest callers turns
  have reached : (Family.after step uninitialized acts)[0]? = some (ready stream) := rfl
  have interleaved : turns.Perm callers.flatten := by decide
  obtain ⟨together, once, answered⟩ := turns_eq_take acts 0 stream reached callers turns interleaved
  exact ⟨reached, interleaved, rfl, together, once 85 rfl, answered⟩

end Generator

end TlsKeys
