import TlsKeys.Proofs.History
import TlsKeys.Proofs.Reads

/-!
The values in force, and the state that they account for.

A history tells which secret and which seed were given last by calls that
succeeded, and how many bytes have been delivered since the stream was last
started. A generator is `Explained` by its history when these three say what it
is. Every call keeps it explained, so the state of a generator holds nothing
else of its past.
-/

namespace TlsKeys

namespace Event

variable (event : Event Generator.Op)

/-- The values given to a call that started the stream, if this is one that succeeded. -/
def started? : Option Params :=
  match event.op with
  | .configure params => if event.reply.succeeded then some params else none
  | .reseedInto seed _ => if event.reply.succeeded then some (.ofSeed seed) else none
  | _ => none

/-- The bytes of the stream that the caller was shown. -/
def delivered : Bytes :=
  match event.op with
  | .read read => read.form.delivered event.reply
  | .reseedInto _ dest => (Generator.Read.Form.region dest 0 dest.size).delivered event.reply
  | _ => []

theorem delivered_read (read : Generator.Read) (reply : Reply) :
    delivered ⟨.read read, reply⟩ = read.form.delivered reply := rfl

theorem delivered_reseedInto (seed : Bytes) {bytes : Bytes} {dest : Buffer}
    (whole : bytes.length = dest.bytes.length) :
    delivered ⟨.reseedInto seed dest, .written (dest.write 0 bytes)⟩ = bytes := by
  have fits : (Generator.Read.Form.region dest 0 dest.size).Fits := by
    simp [Generator.Read.Form.Fits]
  exact Generator.Read.Form.delivered_reply fits (by simpa [Generator.Read.Form.size] using whole)

end Event

namespace Generator

/-- The secret of the latest start that was given one. -/
def secretInForce (history : History Op) : Option Bytes :=
  history.findSome? fun event => event.started?.bind (·.secret?)

def seedInForce (history : History Op) : Option Bytes :=
  history.findSome? fun event => event.started?.bind (·.seed?)

/-- The number of bytes delivered since the latest start, those of the start included. -/
def deliveredSinceStart : History Op → Nat
  | [] => 0
  | event :: earlier =>
    match event.started? with
    | some _ => event.delivered.length
    | none => deliveredSinceStart earlier + event.delivered.length

section History

variable {event : Event Op} {params : Params} (history : History Op)

theorem secretInForce_start (start : event.started? = some params) :
    secretInForce (event :: history) = params.secret?.or (secretInForce history) := by
  rw [secretInForce, List.findSome?_cons, start]
  cases given : params.secret? <;> simp [given, secretInForce]

theorem seedInForce_start (start : event.started? = some params) :
    seedInForce (event :: history) = params.seed?.or (seedInForce history) := by
  rw [seedInForce, List.findSome?_cons, start]
  cases given : params.seed? <;> simp [given, seedInForce]

theorem deliveredSinceStart_start (start : event.started? = some params) :
    deliveredSinceStart (event :: history) = event.delivered.length := by
  rw [deliveredSinceStart, start]

theorem secretInForce_still (still : event.started? = none) :
    secretInForce (event :: history) = secretInForce history := by
  rw [secretInForce, List.findSome?_cons, still]
  rfl

theorem seedInForce_still (still : event.started? = none) :
    seedInForce (event :: history) = seedInForce history := by
  rw [seedInForce, List.findSome?_cons, still]
  rfl

theorem deliveredSinceStart_still (still : event.started? = none) :
    deliveredSinceStart (event :: history) =
      deliveredSinceStart history + event.delivered.length := by
  rw [deliveredSinceStart, still]

end History

theorem on_configure_atPosition (secret seed : Bytes) (position : Nat) (params : Params) :
    (configure params).on (.ready (.atPosition (halves secret).1 (halves secret).2 seed position)) =
      (.ok (), .ready (.ofSecret (params.secret?.getD secret) (params.seed?.getD seed))) := by
  rw [on_configure_ready]
  cases given : params.secret? with
  | none =>
    simp only [Option.map_none, Option.getD_none, KeyStream.restart_atPosition]
    rfl
  | some other => rfl

theorem on_reseedInto_atPosition (secret earlierSeed seed : Bytes) (position : Nat)
    (dest : Buffer) :
    (reseedInto seed).on
        (.ready (.atPosition (halves secret).1 (halves secret).2 earlierSeed position), dest) =
      (.ok (), .ready (.atPosition (halves secret).1 (halves secret).2 seed dest.bytes.length),
        dest.write 0
          (Prf.streamBytes (halves secret).1 (halves secret).2 seed 0 dest.bytes.length)) := by
  rw [on_reseedInto_ready, KeyStream.restart_atPosition, KeyStream.ofSecret_eq_atPosition]
  simp only [KeyStream.read_atPosition, Nat.zero_add]

/-- The generator is the one that the values in force and the bytes delivered make. -/
inductive Explained : History Op → Generator → Prop where
  | uninitialized {history} :
      secretInForce history = none → seedInForce history = none →
      Explained history uninitialized
  | ready {history secret seed} :
      secretInForce history = some secret → seedInForce history = some seed →
      Explained history (ready
        (.atPosition (halves secret).1 (halves secret).2 seed (deliveredSinceStart history)))

namespace Explained

variable {history : History Op} {generator : Generator}

theorem advance {event : Event Op} (still : event.started? = none) {count : Nat}
    (shown : event.delivered.length = count) {secret seed : Bytes}
    (secretIs : secretInForce history = some secret) (seedIs : seedInForce history = some seed) :
    Explained (event :: history) (.ready (.atPosition (halves secret).1 (halves secret).2 seed
      (deliveredSinceStart history + count))) := by
  rw [← shown, ← deliveredSinceStart_still history still]
  apply Explained.ready
  · rw [secretInForce_still history still]
    exact secretIs
  · rw [seedInForce_still history still]
    exact seedIs

theorem idle (explained : Explained history generator) {event : Event Op}
    (still : event.started? = none) (silent : event.delivered = []) :
    Explained (event :: history) generator := by
  cases explained with
  | uninitialized noSecret noSeed =>
    apply Explained.uninitialized
    · rw [secretInForce_still history still]
      exact noSecret
    · rw [seedInForce_still history still]
      exact noSeed
  | ready secretIs seedIs =>
    have shown : event.delivered.length = 0 := by rw [silent, List.length_nil]
    exact advance still shown secretIs seedIs

/-- A start that succeeds puts the values that it was given in force, and keeps the others. -/
theorem start {event : Event Op} {params : Params} (started : event.started? = some params)
    {count : Nat} (shown : event.delivered.length = count) {secret seed : Bytes}
    (secretIs : params.secret?.or (secretInForce history) = some secret)
    (seedIs : params.seed?.or (seedInForce history) = some seed) :
    Explained (event :: history)
      (.ready (.atPosition (halves secret).1 (halves secret).2 seed count)) := by
  rw [← shown, ← deliveredSinceStart_start history started]
  apply Explained.ready
  · rw [secretInForce_start history started]
    exact secretIs
  · rw [seedInForce_start history started]
    exact seedIs

/-- What a start does depends on the values in force alone. -/
theorem on_configure (explained : Explained history generator) (params : Params) :
    (configure params).on generator =
      match params.secret?.or (secretInForce history), params.seed?.or (seedInForce history) with
      | some secret, some seed => (.ok (), .ready (KeyStream.ofSecret secret seed))
      | some _, none => (.error .missingSeed, generator)
      | none, _ => (.error .missingSecret, generator) := by
  cases explained with
  | uninitialized noSecret noSeed =>
    simp only [noSecret, noSeed, Option.or_none]
    exact on_configure_uninitialized params
  | ready inForce seedInForce =>
    simp only [inForce, seedInForce, Option.or_some]
    exact on_configure_atPosition ..

theorem on_reseedInto (explained : Explained history generator) (seed : Bytes) (dest : Buffer) :
    (reseedInto seed).on (generator, dest) =
      match secretInForce history with
      | some secret =>
        (.ok (), .ready (.atPosition (halves secret).1 (halves secret).2 seed dest.bytes.length),
          dest.write 0 (Prf.streamBytes (halves secret).1 (halves secret).2 seed 0
            dest.bytes.length))
      | none => (.error .missingSecret, generator, dest) := by
  cases explained with
  | uninitialized noSecret _ => rw [noSecret, on_reseedInto_uninitialized]
  | ready inForce _ =>
    rw [inForce]
    exact on_reseedInto_atPosition ..

theorem configure_step (explained : Explained history generator) (params : Params) :
    let (reply, next) := step (.configure params) generator
    Explained (⟨.configure params, reply⟩ :: history) next := by
  simp only [step, Reply.ofCall, explained.on_configure]
  cases secretIs : params.secret?.or (secretInForce history) with
  | none => exact explained.idle rfl rfl
  | some secret =>
    cases seedIs : params.seed?.or (seedInForce history) with
    | none => exact explained.idle rfl rfl
    | some seed =>
      simp only [KeyStream.ofSecret_eq_atPosition]
      exact start rfl rfl secretIs seedIs

theorem reseedInto_step (explained : Explained history generator) (seed : Bytes) (dest : Buffer) :
    let (reply, next) := step (.reseedInto seed dest) generator
    Explained (⟨.reseedInto seed dest, reply⟩ :: history) next := by
  simp only [step, Reply.ofWrite, explained.on_reseedInto]
  cases secretIs : secretInForce history with
  | none => exact explained.idle rfl rfl
  | some secret =>
    have whole := Prf.length_streamBytes (halves secret).1 (halves secret).2 seed 0
      dest.bytes.length
    have shown := congrArg List.length (Event.delivered_reseedInto seed whole)
    have started (filled : Buffer) : (⟨.reseedInto seed dest, .written filled⟩ : Event Op).started? =
        some (.ofSeed seed) := rfl
    exact start (started _) (shown.trans whole) secretIs rfl

theorem read_step (explained : Explained history generator) (read : Read) :
    let (reply, next) := step (.read read) generator
    Explained (⟨.read read, reply⟩ :: history) next := by
  change Explained (⟨.read read, (read.step generator).1⟩ :: history) (read.step generator).2
  cases explained with
  | uninitialized noSecret noSeed =>
    rw [Read.step_uninitialized]
    exact (Explained.uninitialized noSecret noSeed).idle rfl (Read.Form.delivered_refuse ..)
  | @ready secret seed secretIs seedIs =>
    obtain ⟨shown, moved⟩ := Read.step_atPosition (halves secret).1 (halves secret).2 seed
      (deliveredSinceStart history) read
    have count := congrArg List.length shown
    rw [Prf.length_streamBytes, ← Event.delivered_read] at count
    rw [moved]
    exact advance rfl count secretIs seedIs

theorem step (explained : Explained history generator) (op : Op) :
    let (reply, next) := Generator.step op generator
    Explained (⟨op, reply⟩ :: history) next := by
  cases op with
  | configure params => exact explained.configure_step params
  | reseedInto seed dest => exact explained.reseedInto_step seed dest
  | read read => exact explained.read_step read
  | isReady => exact explained.idle rfl rfl
  | describe => exact explained.idle rfl rfl
  | sourceName => exact explained.idle rfl rfl

end Explained

theorem exists_explained {acts : List (Family.Act Op)} {index : Nat} {generator : Generator}
    (reached : (Family.after step uninitialized acts)[index]? = some generator) :
    ∃ history, (Family.histories step uninitialized acts)[index]? = some history ∧
      Explained history generator := by
  let Holds (recorded : Recorded Generator Op) := Explained recorded.history recorded.object
  have begins : Holds ⟨uninitialized, []⟩ := .uninitialized rfl rfl
  have keeps (op : Op) (recorded : Recorded Generator Op) (explained : Holds recorded) :
      Holds (Recorded.step step op recorded).2 := explained.step op
  exact Family.exists_history_holding begins keeps reached

/-- However a family of generators came about, the stream of a member is in phase with the values
in force and the number of bytes delivered. -/
theorem ready_inPhase (acts : List (Family.Act Op)) (index : Nat) (stream : KeyStream)
    (reached : (Family.after step uninitialized acts)[index]? = some (ready stream)) :
    ∃ history secret seed,
      (Family.histories step uninitialized acts)[index]? = some history ∧
      secretInForce history = some secret ∧ seedInForce history = some seed ∧
      stream.InPhase (halves secret).1 (halves secret).2 seed (deliveredSinceStart history) := by
  obtain ⟨history, there, explained⟩ := exists_explained reached
  cases explained with
  | @ready secret seed secretIs seedIs =>
    exact ⟨history, secret, seed, there, secretIs, seedIs, KeyStream.inPhase_atPosition ..⟩

theorem ready_inPhase_copy :
    let acts := [.new, .call 0 (.configure (.ofBoth [1, 2, 3] [4])), .copy 0,
      .call 1 (.read (.take 81))]
    let stream := ((KeyStream.ofSecret [1, 2, 3] [4]).read 81).2
    (Family.after step uninitialized acts)[1]? = some (ready stream) ∧
      ∃ history secret seed,
        (Family.histories step uninitialized acts)[1]? = some history ∧
        secretInForce history = some secret ∧ seedInForce history = some seed ∧
        stream.InPhase (halves secret).1 (halves secret).2 seed (deliveredSinceStart history) := by
  intro acts stream
  have started : (Family.after step uninitialized (acts.take 2))[0]? =
      some (ready (.ofSecret [1, 2, 3] [4])) := rfl
  have copied := Family.getElem?_after_copy started rfl
  have reached := Family.getElem?_after_call copied (.read (.take 81))
  rw [step, Read.left_take (show (81 : UInt64).toNat = 81 from rfl)] at reached
  exact ⟨reached, ready_inPhase acts 1 stream reached⟩

end Generator

end TlsKeys
