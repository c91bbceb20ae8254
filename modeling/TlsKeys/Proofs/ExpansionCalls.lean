import TlsKeys.Prf.Expansion

/-!
Expansions call by call.

A code refuses to absorb and to give a tag while it has no key, so a step that
is made of such calls might end halfway, with a part of its message absorbed and
a part of the buffer written. A raw expansion is one over such a code, and its
steps are the calls that they make. They change it and the buffer as they go, and
the first refusal ends them.

An expansion has a key from the beginning, and none of the calls takes it away.
So every step of it goes through, and comes to what the step is said to do.
-/

namespace TlsKeys

/-- An expansion over a code that may have no key. -/
structure RawExpansion (hash : Hash) where
  mac : Mac hash
  link : Bytes

instance {hash : Hash} : Copyable (RawExpansion hash) where
  copy expansion :=
    { mac := Copyable.copy expansion.mac
      link := expansion.link }
  copy_eq expansion := by rw [Copyable.copy_eq]

def Expansion.raw {hash : Hash} (expansion : Expansion hash) : RawExpansion hash where
  mac := .keyed expansion.mac
  link := expansion.link

namespace RawExpansion

variable {hash : Hash}

def onMac {Value : Type} (call : Call (Mac hash) Value) : Call (RawExpansion hash) Value :=
  Call.zoom RawExpansion.mac (fun expansion mac => { expansion with mac }) call

@[simp] theorem on_onMac {Value : Type} (call : Call (Mac hash) Value) (mac : Mac hash)
    (link : Bytes) :
    (onMac call).on ⟨mac, link⟩ = ((call.on mac).1, ⟨(call.on mac).2, link⟩) := rfl

def setLink (link : Bytes) : Call (RawExpansion hash) Unit :=
  modify fun expansion => { expansion with link }

@[simp] theorem on_setLink (next link : Bytes) (mac : Mac hash) :
    (setLink next).on ⟨mac, link⟩ = (.ok (), ⟨mac, next⟩) := rfl

def ofKey (mac : Mac hash) (key : Bytes) : Except Failure (RawExpansion hash) := do
  let mac ← (Mac.key key).made mac
  return { mac, link := [] }

theorem ofKey_eq_ok (mac : Mac hash) (key : Bytes) :
    ofKey mac key = .ok (Expansion.ofKey hash key).raw := rfl

def restart (seed : Bytes) : Call (RawExpansion hash) Unit := do
  onMac Mac.clear
  onMac (Mac.absorb seed)
  setLink (← onMac Mac.tag)
  onMac Mac.clear

theorem on_restart (expansion : Expansion hash) (seed : Bytes) :
    (restart seed).on expansion.raw = (.ok (), (expansion.restart seed).raw) := by
  simp only [restart, Expansion.raw, Call.on_bind, on_onMac, on_setLink, Mac.on_clear_keyed,
    Mac.on_absorb_keyed, Mac.on_tag_keyed, Expansion.restart]

/-- The block of the current link. -/
def block (seed : Bytes) : Call (RawExpansion hash) Bytes := do
  onMac (Mac.absorb (← get).link)
  onMac (Mac.absorb seed)
  let tag ← onMac Mac.tag
  onMac Mac.clear
  return tag

/-- The step to the next link. -/
def advance : Call (RawExpansion hash) Unit := do
  onMac (Mac.absorb (← get).link)
  setLink (← onMac Mac.tag)
  onMac Mac.clear

theorem on_block (expansion : Expansion hash) (seed : Bytes) :
    (block seed).on expansion.raw = (.ok (expansion.nextBlock seed).1,
      ⟨.keyed ((expansion.mac.absorb expansion.link).absorb seed).clear, expansion.link⟩) := by
  simp only [block, Expansion.raw, Call.on_bind, Call.on_get, Call.on_pure, on_onMac,
    Mac.on_clear_keyed, Mac.on_absorb_keyed, Mac.on_tag_keyed, Expansion.nextBlock]

theorem on_advance (expansion : Expansion hash) (seed : Bytes) :
    advance.on
        ⟨.keyed ((expansion.mac.absorb expansion.link).absorb seed).clear, expansion.link⟩ =
      (.ok (), (expansion.nextBlock seed).2.raw) := by
  simp only [advance, Expansion.raw, Call.on_bind, Call.on_get, on_onMac, on_setLink,
    Mac.on_clear_keyed, Mac.on_absorb_keyed, Mac.on_tag_keyed, Expansion.nextBlock]

/-- Combine a block with the piece of the buffer that begins at `start`. -/
def combine (mode : Mode) (start length : Nat) (block : Bytes) :
    Call (RawExpansion hash × Bytes) Unit :=
  modify fun (expansion, buffer) =>
    let piece := (buffer.drop start).take length
    (expansion, Bytes.overlayAt start (List.zipWith mode.combine piece block) buffer)

/-- A block for every piece of the buffer. The pieces are given by their lengths, and follow one
another from `start` on. -/
def extendFrom (seed : Bytes) (mode : Mode) :
    Nat → List Nat → Call (RawExpansion hash × Bytes) Unit
  | _, [] => return ()
  | start, length :: lengths => do
    combine mode start length (← Call.onFirst (block seed))
    Call.onFirst advance
    extendFrom seed mode (start + length) lengths

def extend (seed : Bytes) (mode : Mode) : Call (RawExpansion hash × Bytes) Unit := do
  let (_, buffer) ← get
  extendFrom seed mode 0 ((Bytes.pieces (Expansion.blockLength hash) buffer).map List.length)

/-- What comes before the piece in the buffer, and after it, stays. -/
theorem on_combine (mode : Mode) {block piece : Bytes} (enough : piece.length ≤ block.length)
    (before after : Bytes) (expansion : RawExpansion hash) :
    (combine mode before.length piece.length block).on (expansion, before ++ (piece ++ after)) =
      (.ok (), expansion, before ++ (List.zipWith mode.combine piece block ++ after)) := by
  have same : (List.zipWith mode.combine piece block).length = piece.length := by
    rw [List.length_zipWith, Nat.min_eq_left enough]
  rw [combine, Call.on_modify]
  simp only [List.drop_left, List.take_left, Bytes.overlayAt_append same]

/-- From any link on, no call inside an extension is refused. What stands before the pieces has
been written already. -/
theorem on_extendFrom (seed : Bytes) (mode : Mode) {pieces : List Bytes}
    (short : ∀ piece ∈ pieces, piece.length ≤ Expansion.blockLength hash) (before : Bytes)
    (expansion : Expansion hash) :
    (extendFrom seed mode before.length (pieces.map List.length)).on
        (expansion.raw, before ++ pieces.flatten) =
      let (bytes, last) := Expansion.extendPieces seed mode pieces expansion
      (.ok (), last.raw, before ++ bytes) := by
  induction pieces generalizing before expansion with
  | nil => rfl
  | cons piece pieces ih =>
    obtain ⟨shortPiece, shortRest⟩ := List.forall_mem_cons.mp short
    have enough : piece.length ≤ (expansion.nextBlock seed).1.length := by
      rw [Expansion.length_nextBlock, ← Expansion.blockLength_eq_outputLength]
      exact shortPiece
    have length : (before ++ List.zipWith mode.combine piece (expansion.nextBlock seed).1).length =
        before.length + piece.length := by
      rw [List.length_append, List.length_zipWith, Nat.min_eq_left enough]
    have rest := ih shortRest
      (before ++ List.zipWith mode.combine piece (expansion.nextBlock seed).1)
      (expansion.nextBlock seed).2
    simp only [length, List.append_assoc] at rest
    simp only [extendFrom, List.map_cons, List.flatten_cons, Call.on_bind, Call.on_onFirst,
      on_block, on_combine mode enough, on_advance, rest, Expansion.extendPieces]

theorem on_extend (expansion : Expansion hash) (seed : Bytes) (mode : Mode) (buffer : Bytes) :
    (extend seed mode).on (expansion.raw, buffer) =
      let (bytes, last) := expansion.extend seed mode buffer
      (.ok (), last.raw, bytes) := by
  have all := on_extendFrom seed mode
    (fun _ => @Bytes.length_le_of_mem_pieces (Expansion.blockLength hash) buffer _) [] expansion
  rw [List.nil_append, Bytes.flatten_pieces (Expansion.blockLength_pos hash)] at all
  rw [extend, Call.on_bind, Call.on_get]
  exact all

end RawExpansion

end TlsKeys
