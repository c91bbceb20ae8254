import TlsKeys.Mac
import TlsKeys.Proofs.Scripts

/-!
What an authentication code has to remember: its last key, and the message since.

The code keeps neither. It keeps states of the hash, in which the masked keys
and the pieces of the message have been absorbed, and it goes back to a state by
a copy. But every call does to it what the same call does to a key and a message
(`step_mac`). So after any calls it is the code of the last key and of the pieces
accepted since, and nothing else of the past is left in it.
-/

namespace TlsKeys

theorem Bytes.xor_replicate (bytes : Bytes) (mask : UInt8) :
    xor bytes (List.replicate bytes.length mask) = bytes.map (· ^^^ mask) := by
  rw [← List.map_const', xor, List.zipWith_map_right, List.zipWith_self]

/-- The formula of the keyed hash with nothing left to other definitions. -/
theorem Hash.hmac_eq_digest_xor (hash : Hash) (key message : Bytes) :
    hash.hmac key message =
      let short := if 64 < key.length then hash.digest key else key
      let block := short ++ List.replicate (64 - short.length) 0
      hash.digest (Bytes.xor block (List.replicate 64 0x5c) ++
        hash.digest (Bytes.xor block (List.replicate 64 0x36) ++ message)) := by
  have masked (mask : UInt8) : Bytes.xor (hash.keyBlock key) (List.replicate 64 mask) =
      hash.maskedKey mask key := by
    have whole := Bytes.xor_replicate (hash.keyBlock key) mask
    rw [length_keyBlock] at whole
    exact whole
  change _ = hash.digest (Bytes.xor (hash.keyBlock key) _ ++
    hash.digest (Bytes.xor (hash.keyBlock key) _ ++ message))
  rw [masked, masked]
  rfl

namespace Mac

variable {hash : Hash}

structure Memory where
  key? : Option Bytes := none
  message : Bytes := []

namespace Memory

def accept (memory : Memory) (piece : Bytes) : Reply × Memory :=
  match memory.key? with
  | some _ => (.done, { memory with message := memory.message ++ piece })
  | none => (.failed (.state "MAC used before init"), memory)

/-- What a call does to a key and a message. The region of a piece is asked for before the key. -/
def step (hash : Hash) (op : Op) (memory : Memory) : Reply × Memory :=
  match op with
  | .key bytes => (.done, { key? := some bytes, message := [] })
  | .append bytes offset length =>
    if offset.toNat + length.toNat ≤ bytes.bytes.length then
      memory.accept ((bytes.bytes.drop offset.toNat).take length.toNat)
    else (.failed (.bounds offset length bytes.size), memory)
  | .appendAll bytes => memory.accept bytes.bytes
  | .tag =>
    match memory.key? with
    | some key => (.bytes (hash.hmac key memory.message), memory)
    | none => (.failed (.state "MAC used before init"), memory)
  | .clear => (.done, { memory with message := [] })
  | .tagLength => (.number hash.outputLength, memory)
  | .algorithm => (.text hash.name, memory)
  | .hasKey => (.flag memory.key?.isSome, memory)
  | .describe =>
    (.text (Text.inBraces "HmacAdapter"
      [Text.field "algorithm" hash.mixedCaseName, Text.field "keyed" (toString memory.key?.isSome),
        ".."]), memory)

/-- The code that has the key, and has absorbed the message. -/
def mac (hash : Hash) (memory : Memory) : Mac hash :=
  match memory.key? with
  | some key => keyed (Hmac.ofMessage hash key memory.message)
  | none => unkeyed

theorem ofCall_absorb_mac (memory : Memory) (piece : Bytes) :
    Reply.ofCall (fun _ => .done) (absorb piece) (memory.mac hash) =
      ((memory.accept piece).1, (memory.accept piece).2.mac hash) := by
  obtain ⟨_ | key, message⟩ := memory
  · rfl
  · simp only [mac, Reply.ofCall, on_absorb_keyed, Hmac.absorb_ofMessage]
    rfl

theorem ofCall_append_mac (memory : Memory) (bytes : Buffer) {offset length : UInt64}
    (fits : offset.toNat + length.toNat ≤ bytes.bytes.length) :
    Reply.ofCall (fun _ => .done) (append bytes offset length) (memory.mac hash) =
      ((memory.accept ((bytes.bytes.drop offset.toNat).take length.toNat)).1,
        (memory.accept ((bytes.bytes.drop offset.toNat).take length.toNat)).2.mac hash) := by
  obtain ⟨region, accepted, start, amount⟩ := Buffer.check_of_fits fits
  rw [← ofCall_absorb_mac]
  simp only [Reply.ofCall, on_append, accepted, Buffer.slice, start, amount]

theorem ofCall_append_mac_of_not_fits (memory : Memory) (bytes : Buffer) {offset length : UInt64}
    (outside : ¬ offset.toNat + length.toNat ≤ bytes.bytes.length) :
    Reply.ofCall (fun _ => .done) (append bytes offset length) (memory.mac hash) =
      (.failed (.bounds offset length bytes.size), memory.mac hash) := by
  simp only [Reply.ofCall, on_append, Buffer.check_of_not_fits outside]

/-- Every call does to the code what it does to the key and the message. -/
theorem step_mac (op : Op) (memory : Memory) :
    Mac.step op (memory.mac hash) =
      ((step hash op memory).1, (step hash op memory).2.mac hash) := by
  cases op with
  | key bytes =>
    simp only [Mac.step, Reply.ofCall, on_key, Hmac.ofKey_eq_ofMessage]
    rfl
  | append bytes offset length =>
    rw [step]
    split
    next fits => exact memory.ofCall_append_mac bytes fits
    next outside => exact memory.ofCall_append_mac_of_not_fits bytes outside
  | appendAll bytes =>
    simp only [Mac.step, Reply.ofCall, on_appendAll]
    exact memory.ofCall_absorb_mac bytes.bytes
  | tag =>
    obtain ⟨_ | key, message⟩ := memory
    · rfl
    · simp only [Mac.step, mac, Reply.ofCall, on_tag_keyed, Hmac.tag_ofMessage]
      rfl
  | clear =>
    obtain ⟨_ | key, message⟩ := memory
    · rfl
    · simp only [Mac.step, mac, Reply.ofCall, on_clear_keyed, Hmac.clear_ofMessage,
        Hmac.ofKey_eq_ofMessage]
      rfl
  | hasKey => obtain ⟨_ | key, message⟩ := memory <;> rfl
  | describe => obtain ⟨_ | key, message⟩ := memory <;> rfl
  | tagLength => simp only [Mac.step, step, tagLength_eq_outputLength]
  | algorithm => rfl

end Memory

/-- What the empty memory replies to a script, and the code that it comes to. -/
def Memory.run (hash : Hash) (ops : List Op) : List Reply × Mac hash :=
  let (replies, memory) := runScript (step hash) ops {}
  (replies, memory.mac hash)

theorem runScript_new (hash : Hash) (ops : List Op) :
    runScript step ops (new hash) = Memory.run hash ops :=
  runScript_view (Memory.mac hash) Memory.step_mac ops {}

/-- In its box a code replies as it does outside. -/
theorem runScript_boxed (mac : Mac hash) (ops : List Op) :
    runScript Boxed.step ops ⟨hash, mac⟩ =
      ((runScript step ops mac).1, ⟨hash, (runScript step ops mac).2⟩) :=
  runScript_view (fun mac => (⟨hash, mac⟩ : Boxed)) (fun _ _ => rfl) ops mac

theorem newMac_eq (hash : Hash) : hash.newMac = ⟨hash, new hash⟩ := by
  cases hash <;> rfl

/-- Whatever is called on a code that has just been made, for one of the hashes by its name or in a
box by the hash, it replies as its memory does, and is left as the code of the last key and the
message since. The tags are those of the formula. -/
theorem runScript_eq_memory (ops : List Op) :
    runScript step ops md5 = Memory.run .md5 ops ∧
      runScript step ops sha1 = Memory.run .sha1 ops ∧
      (∀ hash : Hash, runScript Boxed.step ops hash.newMac =
        ((Memory.run hash ops).1, ⟨hash, (Memory.run hash ops).2⟩)) ∧
      ∀ (hash : Hash) (key message : Bytes), hash.hmac key message =
        let short := if 64 < key.length then hash.digest key else key
        let block := short ++ List.replicate (64 - short.length) 0
        hash.digest (Bytes.xor block (List.replicate 64 0x5c) ++
          hash.digest (Bytes.xor block (List.replicate 64 0x36) ++ message)) := by
  refine ⟨runScript_new .md5 ops, runScript_new .sha1 ops, fun hash => ?_,
    fun hash => hash.hmac_eq_digest_xor⟩
  rw [newMac_eq, runScript_boxed, runScript_new]

end Mac

end TlsKeys
