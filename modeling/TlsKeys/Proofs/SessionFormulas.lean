import TlsKeys.Proofs.SessionCalls

/-!
The keys of a whole session against the formulas.

Two generators are at work: one under the premaster secret, which is read once,
and the one of the session under the secret that was read. The formulas know
neither. They name a secret, a label, what follows the label, and a length, and
the two random values change places between the master secret and the key block.
-/

namespace TlsKeys

/-- What the two sides of a handshake agree on, each value by its formula. -/
def SessionKeys.ofFormulas (premasterSecret : Bytes) (clientRandom serverRandom : Random)
    (transcript : Bytes) (keyLength : Nat) : SessionKeys :=
  let masterSecret := Prf.output premasterSecret (Bytes.ofAscii "master secret")
    (clientRandom.val ++ serverRandom.val) 48
  let hash := Hash.md5.digest transcript ++ Hash.sha1.digest transcript
  { masterSecret
    keyBlock := Prf.output masterSecret (Bytes.ofAscii "key expansion")
      (serverRandom.val ++ clientRandom.val) keyLength
    clientFinished := Prf.output masterSecret (Bytes.ofAscii "client finished") hash 12
    serverFinished := Prf.output masterSecret (Bytes.ofAscii "server finished") hash 12 }

theorem ok_bind {Value Other : Type} (value : Value) (next : Value → Except Failure Other) :
    (.ok value >>= next) = next value := rfl

theorem toNat_masterSecretLength : masterSecretLength.toNat = 48 := rfl

theorem masterSecret_eq_ok (premasterSecret : Bytes) (clientRandom serverRandom : Random) :
    masterSecret premasterSecret clientRandom serverRandom =
      .ok (Prf.output premasterSecret (Bytes.ofAscii "master secret")
        (clientRandom.val ++ serverRandom.val) 48) := by
  have collected := Generator.on_take_atPosition (halves premasterSecret).1
    (halves premasterSecret).2 (Label.masterSecret ++ (clientRandom.val ++ serverRandom.val)) 0
    masterSecretLength
  rw [toNat_masterSecretLength, ← Prf.output_eq_streamBytes, ← KeyStream.ofSecret_eq_atPosition,
    ← Generator.source_collect] at collected
  rw [masterSecret, Generator.ofSecret_eq_ok, ok_bind]
  simp only [Derivation.seed, Derivation.label, Derivation.context]
  rw [collected, Label.masterSecret]

/-- For every premaster secret, random values, transcript and key length, the derivation of a
session succeeds and gives what the formulas give. So do the calls on a session of its master
secret, whatever was called before them. -/
theorem session_eq_formulas (premasterSecret : Bytes) (clientRandom serverRandom : Random)
    (transcript : Bytes) (keyLength : UInt64) :
    let hash := handshakeHash transcript
    let keys := SessionKeys.ofFormulas premasterSecret clientRandom serverRandom transcript
      keyLength.toNat
    hash.val = Hash.md5.digest transcript ++ Hash.sha1.digest transcript ∧ hash.val.length = 36 ∧
      masterSecret premasterSecret clientRandom serverRandom = .ok keys.masterSecret ∧
      SessionKeys.derive premasterSecret clientRandom serverRandom transcript keyLength =
        .ok keys ∧
      ∃ session, Session.start keys.masterSecret clientRandom serverRandom = .ok session ∧
        ∀ earlier,
          let (_, reached) := runScript Session.step earlier session
          ((Session.keyBlock keyLength).on reached).1 = .ok keys.keyBlock ∧
            ((Session.clientFinished hash).on reached).1 = .ok keys.clientFinished ∧
            ((Session.serverFinished hash).on reached).1 = .ok keys.serverFinished := by
  intro hash keys
  obtain ⟨session, started, keyed⟩ :=
    Session.exists_start keys.masterSecret clientRandom serverRandom
  have master : masterSecret premasterSecret clientRandom serverRandom = .ok keys.masterSecret :=
    masterSecret_eq_ok premasterSecret clientRandom serverRandom
  refine ⟨rfl, hash.property, master, ?_, session, started, ?_⟩
  · obtain ⟨_, block, keyed⟩ := keyed.on_keyBlock keyLength
    obtain ⟨_, client, keyed⟩ := keyed.on_clientFinished (handshakeHash transcript)
    obtain ⟨_, server, _⟩ := keyed.on_serverFinished (handshakeHash transcript)
    rw [SessionKeys.derive, master, ok_bind, started, ok_bind]
    simp only [Call.on_bind, block, client, server, Call.on_pure]
    rfl
  · intro earlier
    have kept := holds_runScript (fun op _ keyed => keyed.keyed_step op) keyed earlier
    obtain ⟨_, block, _⟩ := kept.on_keyBlock keyLength
    obtain ⟨_, client, _⟩ := kept.on_clientFinished hash
    obtain ⟨_, server, _⟩ := kept.on_serverFinished hash
    simp only [block, client, server]
    exact ⟨rfl, rfl, rfl⟩

end TlsKeys
