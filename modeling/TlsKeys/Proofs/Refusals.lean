import TlsKeys.Proofs.GeneratorCalls
import TlsKeys.Proofs.Members
import TlsKeys.Proofs.ReadScripts

/-!
Which calls on a generator are refused, why, and what is left after a refusal.

`Refuses` lists the refusals. A generator that was reached by calls is either
uninitialized or stands somewhere in a stream (`Standing`), and a stream never
fails to go on, so the list is complete. A standing generator stands after every
call, and the only calls that make one are those that initialize. A raw generator
refuses the same calls, so none of its calls is refused halfway.
-/

namespace TlsKeys

namespace Generator

/-- The calls that are refused, each with the reason given. -/
inductive Refuses : Generator → Op → Failure → Prop where
  | noSecret {params} : params.secret? = none →
      Refuses uninitialized (.configure params) (.config "no secret supplied")
  | noSeed {params secret} : params.secret? = some secret → params.seed? = none →
      Refuses uninitialized (.configure params) (.config "no seed supplied")
  | noSecretToKeep {seed dest} :
      Refuses uninitialized (.reseedInto seed dest) (.config "no secret supplied")
  | noStream {read} : Refuses uninitialized (.read read) (.state "PRF not initialized")
  | outside {stream dest offset length} : dest.bytes.length < offset.toNat + length.toNat →
      Refuses (ready stream) (.read (.into dest offset length)) (.bounds offset length dest.size)
  | sourceOutside {stream dest offset length} :
      dest.bytes.length < offset.toNat + length.toNat →
      Refuses (ready stream) (.read (.source (.into dest offset length)))
        (.bounds offset length dest.size)

/-- The reply to a call that is refused. If the call was given a buffer, the reply shows it as it
was given. -/
def Op.refusal (failure : Failure) : Op → Reply
  | .reseedInto _ dest => .refused dest failure
  | .read asked => asked.form.refuse failure
  | _ => .failed failure

theorem Op.succeeded_refusal (op : Op) (failure : Failure) :
    (op.refusal failure).succeeded = false := by
  cases op with
  | read read => exact Read.succeeded_refuse read.form failure
  | _ => rfl

theorem Refuses.step_eq {generator : Generator} {op : Op} {failure : Failure}
    (refused : Refuses generator op failure) :
    step op generator = (op.refusal failure, generator) := by
  cases refused with
  | noSecret missing =>
    simp only [step, Reply.ofCall, on_configure_uninitialized, missing]
    rfl
  | noSeed given missing =>
    simp only [step, Reply.ofCall, on_configure_uninitialized, given, missing]
    rfl
  | noSecretToKeep => rfl
  | noStream => exact Read.step_uninitialized _
  | @outside stream dest offset length beyond =>
    have region : (Read.into dest offset length).form = .region dest offset length := rfl
    exact Read.step_of_not_fits region (Nat.not_le_of_lt beyond) stream
  | @sourceOutside stream dest offset length beyond =>
    have region : (Read.source (.into dest offset length)).form = .region dest offset length := rfl
    exact Read.step_of_not_fits region (Nat.not_le_of_lt beyond) stream

theorem Read.refuses_of_not_fits {read : Read} (outside : ¬ read.form.Fits) (stream : KeyStream) :
    ∃ failure, Refuses (ready stream) (.read read) failure := by
  have whole (dest : Buffer) : (Form.region dest 0 dest.size).Fits := by simp [Form.Fits]
  rcases read with _ | _ | _ | dest | _ | _ | (_ | _ | dest | _)
  case into => exact ⟨_, .outside (Nat.lt_of_not_le outside)⟩
  case source.into => exact ⟨_, .sourceOutside (Nat.lt_of_not_le outside)⟩
  case fill => exact absurd (whole dest) outside
  case source.fill => exact absurd (whole dest) outside
  all_goals exact absurd trivial outside

/-- The generator has a stream, somewhere in the output of some secret and some seed. -/
def Standing (generator : Generator) : Prop :=
  ∃ secret seed position,
    generator = .ready (.atPosition (halves secret).1 (halves secret).2 seed position)

theorem standing_ofSecret (secret seed : Bytes) :
    Standing (.ready (.ofSecret secret seed)) :=
  ⟨secret, seed, 0, congrArg ready (KeyStream.ofSecret_eq_atPosition secret seed)⟩

namespace Standing

variable {generator : Generator}

theorem isReady (standing : generator.Standing) : generator.isReady = true := by
  obtain ⟨secret, seed, position, rfl⟩ := standing
  rfl

theorem step (op : Op) (standing : generator.Standing) : (step op generator).2.Standing := by
  obtain ⟨secret, seed, position, rfl⟩ := standing
  cases op with
  | configure params =>
    simp only [Generator.step, Reply.ofCall, on_configure_atPosition]
    exact standing_ofSecret ..
  | reseedInto other dest =>
    simp only [Generator.step, Reply.ofWrite, on_reseedInto_atPosition]
    exact ⟨secret, other, _, rfl⟩
  | read read =>
    exact ⟨secret, seed, _,
      (Read.step_atPosition (halves secret).1 (halves secret).2 seed position read).2⟩
  | _ => exact ⟨secret, seed, position, rfl⟩

theorem exists_refuses (standing : generator.Standing) {op : Op}
    (failed : (Generator.step op generator).1.succeeded = false) :
    ∃ failure, Refuses generator op failure := by
  obtain ⟨secret, seed, position, rfl⟩ := standing
  cases op with
  | configure params =>
    simp only [Generator.step, Reply.ofCall, on_configure_atPosition] at failed
    cases failed
  | reseedInto other dest =>
    simp only [Generator.step, Reply.ofWrite, on_reseedInto_atPosition] at failed
    cases failed
  | read read =>
    have answered := Read.answered_atPosition (halves secret).1 (halves secret).2 seed position read
    apply Read.refuses_of_not_fits
    intro fits
    rw [Generator.step, answered.accepted.mpr fits] at failed
    cases failed
  | _ => cases failed

end Standing

theorem exists_refuses_uninitialized {op : Op}
    (failed : (step op uninitialized).1.succeeded = false) :
    ∃ failure, Refuses uninitialized op failure := by
  cases op with
  | configure params =>
    cases secretIs : params.secret? with
    | none => exact ⟨_, .noSecret secretIs⟩
    | some secret =>
      cases seedIs : params.seed? with
      | none => exact ⟨_, .noSeed secretIs seedIs⟩
      | some seed =>
        simp only [step, Reply.ofCall, on_configure_uninitialized, secretIs, seedIs] at failed
        cases failed
  | reseedInto seed dest => exact ⟨_, .noSecretToKeep⟩
  | read read => exact ⟨_, .noStream⟩
  | _ => cases failed

/-- A call that initializes has succeeded. -/
def Configured (history : History Op) : Prop :=
  ∃ event ∈ history, ∃ params, event.op = .configure params ∧ event.reply.succeeded = true

theorem not_configured_nil : ¬ Configured [] := by
  rintro ⟨event, present, _⟩
  cases present

theorem configured_cons {event : Event Op} {history : History Op} :
    Configured (event :: history) ↔
      (∃ params, event.op = .configure params ∧ event.reply.succeeded = true) ∨
        Configured history := by
  simp only [Configured, List.mem_cons, or_and_right, exists_or, exists_eq_left]

/-- Reached by calls, a generator has a stream if one of the calls that initialize succeeded. -/
inductive Reached : Recorded Generator Op → Prop where
  | uninitialized {history} : ¬ Configured history → Reached ⟨.uninitialized, history⟩
  | standing {generator history} : generator.Standing → Configured history →
      Reached ⟨generator, history⟩

theorem Reached.uninitialized_step {history : History Op} (never : ¬ Configured history) (op : Op) :
    Reached (Recorded.step step op ⟨.uninitialized, history⟩).2 := by
  have still {reply : Reply} (no : ∀ params, op = .configure params → reply.succeeded = false) :
      Reached ⟨Generator.uninitialized, ⟨op, reply⟩ :: history⟩ := by
    refine .uninitialized fun configured => ?_
    rcases configured_cons.mp configured with ⟨params, isConfigure, yes⟩ | before
    · rw [no params isConfigure] at yes
      cases yes
    · exact never before
  simp only [Recorded.step]
  by_cases failed : (Generator.step op .uninitialized).1.succeeded = false
  · obtain ⟨failure, refused⟩ := exists_refuses_uninitialized failed
    rw [refused.step_eq]
    exact still fun _ _ => Op.succeeded_refusal op failure
  · cases op with
    | configure params =>
      obtain ⟨_ | secret, _ | seed⟩ := params
      case some.some =>
        exact .standing (standing_ofSecret secret seed)
          (configured_cons.mpr (.inl ⟨_, rfl, rfl⟩))
      all_goals exact absurd rfl failed
    | reseedInto seed dest => exact absurd rfl failed
    | read read =>
      rw [Generator.step, Read.step_uninitialized] at failed
      exact absurd (Read.succeeded_refuse ..) failed
    | _ =>
      apply still
      intro params isConfigure
      cases isConfigure

theorem Reached.step (op : Op) (recorded : Recorded Generator Op) (reached : Reached recorded) :
    Reached (Recorded.step Generator.step op recorded).2 := by
  cases reached with
  | uninitialized never => exact uninitialized_step never op
  | standing stands configured =>
    exact .standing (stands.step op) (configured_cons.mpr (.inr configured))

theorem Reached.isReady_iff {recorded : Recorded Generator Op} (reached : Reached recorded) :
    recorded.object.isReady = true ↔ Configured recorded.history := by
  cases reached with
  | uninitialized never => exact ⟨nofun, fun configured => absurd configured never⟩
  | standing stands configured => exact ⟨fun _ => configured, fun _ => stands.isReady⟩

/-- A generator that was reached by calls, whichever they were, refuses the calls of the list and
no others. A refusal gives the reason of the list and changes neither the generator nor the buffer,
also where every call inside may fail and leave what it has done so far. The generator is ready
exactly if a call that initializes has succeeded, and stays so. -/
theorem refused_iff (acts : List (Family.Act Op)) (index : Nat) (generator : Generator)
    (reached : (Family.after step uninitialized acts)[index]? = some generator) :
    (∀ op, (step op generator).1.succeeded = false ↔ ∃ failure, Refuses generator op failure) ∧
      (∀ op failure, Refuses generator op failure →
        step op generator = (op.refusal failure, generator) ∧
          RawGenerator.step op generator.raw = (op.refusal failure, generator.raw)) ∧
      (∃ history, (Family.histories step uninitialized acts)[index]? = some history ∧
        (generator.isReady = true ↔ Configured history)) ∧
      (generator.isReady = true → ∀ more, ∃ later,
        (Family.after step uninitialized (acts ++ more))[index]? = some later ∧
          later.isReady = true) ∧
      (Family.after RawGenerator.step .uninitialized acts)[index]? = some generator.raw ∧
      ∀ ops, runScript RawGenerator.step ops generator.raw =
        ((runScript step ops generator).1, (runScript step ops generator).2.raw) := by
  have begins : Reached ⟨uninitialized, []⟩ := .uninitialized not_configured_nil
  obtain ⟨history, there, stood⟩ := Family.exists_history_holding begins Reached.step reached
  have whole := whole_of_reached reached
  refine ⟨fun op => ⟨?_, ?_⟩, fun op failure refused => ⟨refused.step_eq, ?_⟩,
    ⟨history, there, stood.isReady_iff⟩, fun isReady more => ?_, ?_, runScript_raw whole⟩
  · intro failed
    cases stood with
    | uninitialized _ => exact exists_refuses_uninitialized failed
    | standing stands _ => exact stands.exists_refuses failed
  · rintro ⟨failure, refused⟩
    rw [refused.step_eq]
    exact op.succeeded_refusal failure
  · rw [step_raw op generator whole, refused.step_eq]
  · cases stood with
    | uninitialized _ => cases isReady
    | standing stands _ =>
      refine ⟨_, Family.getElem?_after_append reached more, ?_⟩
      exact (holds_runScript (fun op _ => Standing.step op) stands _).isReady
  · rw [after_raw, List.getElem?_map, reached]
    rfl

theorem refused_iff_region_wraps :
    let acts := [.new, .call 0 (.configure (.ofSeed [9])),
      .call 0 (.configure (.ofBoth [1, 2, 3] [4])), .copy 0, .call 1 (.read (.take 81))]
    let stream := ((KeyStream.ofSecret [1, 2, 3] [4]).read 81).2
    let dest := Buffer.zeros 8
    (Family.after step uninitialized acts)[1]? = some (ready stream) ∧
      step (.read (.into dest 0xffffffffffffffff 2)) (ready stream) =
        (.refused dest (.bounds 0xffffffffffffffff 2 dest.size), ready stream) ∧
      RawGenerator.step (.read (.into dest 0xffffffffffffffff 2)) (ready stream).raw =
        (.refused dest (.bounds 0xffffffffffffffff 2 dest.size), (ready stream).raw) ∧
      (step (.read (.into dest 7 2)) (ready stream)).1.succeeded = false ∧
      (∃ history, (Family.histories step uninitialized acts)[1]? = some history ∧
        ((ready stream).isReady = true ↔ Configured history)) ∧
      ∀ more, ∃ later, (Family.after step uninitialized (acts ++ more))[1]? = some later ∧
        later.isReady = true := by
  intro acts stream dest
  have started : (Family.after step uninitialized (acts.take 3))[0]? =
      some (ready (.ofSecret [1, 2, 3] [4])) := rfl
  have copied := Family.getElem?_after_copy started rfl
  have reached := Family.getElem?_after_call copied (.read (.take 81))
  rw [step, Read.left_take (show (81 : UInt64).toNat = 81 from rfl)] at reached
  obtain ⟨failed, refused, configured, stays, _⟩ := refused_iff acts 1 (ready stream) reached
  obtain ⟨wraps, wrapsRaw⟩ := refused (.read (.into dest 0xffffffffffffffff 2)) _
    (.outside (by decide))
  exact ⟨reached, wraps, wrapsRaw, (failed _).mpr ⟨_, .outside (by decide)⟩, configured, stays rfl⟩

end Generator

end TlsKeys
