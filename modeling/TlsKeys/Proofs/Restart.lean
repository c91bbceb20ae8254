import TlsKeys.Proofs.InForce

/-!
A start forgets everything but the values that it keeps.

A generator that is started again without a secret goes on with the expansions
of the stream that it had, used as they are. They hold the keys of the secret
in force (`Explained`), and a start goes by the keys alone, so it comes to the
stream that a new generator would have.
-/

namespace TlsKeys.Generator

theorem Explained.configure_accepted_iff {history : History Op} {generator : Generator}
    (explained : Explained history generator) (params : Params) (next : Generator) :
    (configure params).on generator = (.ok (), next) ↔
      ∃ secret seed, params.secret?.or (secretInForce history) = some secret ∧
        params.seed?.or (seedInForce history) = some seed ∧ ofSecret secret seed = .ok next := by
  rw [explained.on_configure]
  constructor
  · intro accepted
    split at accepted
    next secret seed secretIs seedIs =>
      cases accepted
      exact ⟨secret, seed, secretIs, seedIs, ofSecret_eq_ok secret seed⟩
    next => cases accepted
    next => cases accepted
  · rintro ⟨secret, seed, secretIs, seedIs, fresh⟩
    rw [ofSecret_eq_ok] at fresh
    cases fresh
    rw [secretIs, seedIs]

theorem exists_on_configure_fill (seed : Bytes) (dest : Buffer) (stream : KeyStream) :
    ∃ written final,
      (reseedInto seed).on (ready stream, dest) = (.ok (), final, written) ∧
        (Call.onFirst (configure (.ofSeed seed)) >>= fun _ => fill).on (ready stream, dest) =
          (.ok (), final, written) := by
  refine ⟨_, _, on_reseedInto_ready seed stream dest, ?_⟩
  rw [Call.on_bind, Call.on_onFirst, on_configure_ready]
  exact on_fill_ready ..

/-- However a generator came to its state, a start that it accepts leaves what a new generator has
that is given the values in force, and a start by a new seed may be joined with a read. -/
theorem restart_eq_fresh (acts : List (Family.Act Op)) (index : Nat) (generator : Generator)
    (reached : (Family.after step uninitialized acts)[index]? = some generator) :
    ∃ history, (Family.histories step uninitialized acts)[index]? = some history ∧
      (∀ params next, (configure params).on generator = (.ok (), next) ↔
        ∃ secret seed, params.secret?.or (secretInForce history) = some secret ∧
          params.seed?.or (seedInForce history) = some seed ∧ ofSecret secret seed = .ok next) ∧
      ∀ stream seed dest, generator = ready stream → ∃ written final,
        (reseedInto seed).on (generator, dest) = (.ok (), final, written) ∧
          (Call.onFirst (configure (.ofSeed seed)) >>= fun _ => fill).on (generator, dest) =
            (.ok (), final, written) := by
  obtain ⟨history, there, explained⟩ := exists_explained reached
  refine ⟨history, there, explained.configure_accepted_iff, ?_⟩
  intro stream seed dest isReady
  rw [isReady]
  exact exists_on_configure_fill seed dest stream

theorem restart_eq_fresh_refused_once :
    let acts := [.new, .call 0 (.configure (.ofSeed [9])),
      .call 0 (.configure (.ofBoth [1, 2, 3] [4])), .call 0 (.read (.take 81))]
    let stream := ((KeyStream.ofSecret [1, 2, 3] [4]).read 81).2
    (Family.after step uninitialized acts)[0]? = some (ready stream) ∧
      ∃ history, (Family.histories step uninitialized acts)[0]? = some history ∧
        (∀ params next, (configure params).on (ready stream) = (.ok (), next) ↔
          ∃ secret seed, params.secret?.or (secretInForce history) = some secret ∧
            params.seed?.or (seedInForce history) = some seed ∧ ofSecret secret seed = .ok next) ∧
        ∀ seed dest, ∃ written final,
          (reseedInto seed).on (ready stream, dest) = (.ok (), final, written) ∧
            (Call.onFirst (configure (.ofSeed seed)) >>= fun _ => fill).on (ready stream, dest) =
              (.ok (), final, written) := by
  intro acts stream
  have started : (Family.after step uninitialized (acts.take 3))[0]? =
      some (ready (.ofSecret [1, 2, 3] [4])) := rfl
  have reached := Family.getElem?_after_call started (.read (.take 81))
  rw [step, Read.left_take (show (81 : UInt64).toNat = 81 from rfl)] at reached
  obtain ⟨history, there, fresh, joined⟩ := restart_eq_fresh acts 0 (ready stream) reached
  exact ⟨reached, history, there, fresh, fun seed dest => joined stream seed dest rfl⟩

end TlsKeys.Generator
