import TlsKeys.Buffer

/-!
Calls on an object and their replies.

A call may fail, and it leaves an object either way: what a failed call leaves
is for each call to say. A buffer that a call writes into is a part of what it
leaves, so a failed call may leave it written in part. A reply is all that a
caller sees of a call.
-/

namespace TlsKeys

abbrev Call (Object Value : Type) : Type :=
  ExceptT Failure (StateM Object) Value

namespace Call

variable {Object Part Value Other : Type}

/-- The outcome of a call, and the object it leaves. -/
def on (call : Call Object Value) (object : Object) : Except Failure Value × Object :=
  StateT.run (ExceptT.run call) object

@[simp] theorem on_pure (value : Value) (object : Object) :
    on (pure value) object = (.ok value, object) := rfl

@[simp] theorem on_throw (failure : Failure) (object : Object) :
    on (throw failure : Call Object Value) object = (.error failure, object) := rfl

@[simp] theorem on_get (object : Object) :
    on (get : Call Object Object) object = (.ok object, object) := rfl

@[simp] theorem on_monadLift (outcome : Except Failure Value) (object : Object) :
    on (monadLift outcome : Call Object Value) object = (outcome, object) := rfl

@[simp] theorem on_modify (change : Object → Object) (object : Object) :
    on (modify change : Call Object Unit) object = (.ok (), change object) := rfl

theorem on_bind (call : Call Object Value) (next : Value → Call Object Other) (object : Object) :
    on (call >>= next) object =
      match on call object with
      | (.ok value, object) => on (next value) object
      | (.error failure, object) => (.error failure, object) := by
  rcases outcome : on call object with ⟨failure | value, left⟩ <;>
  · rw [on] at outcome
    rw [on, ExceptT.run_bind, StateT.run_bind, outcome]
    rfl

/-- A call on a part of an object, which is put back whether or not the call fails. -/
def zoom (part : Object → Part) (putBack : Object → Part → Object) (call : Call Part Value) :
    Call Object Value := do
  let object ← get
  let (outcome, left) := call.on (part object)
  set (putBack object left)
  monadLift outcome

@[simp] theorem on_zoom (part : Object → Part) (putBack : Object → Part → Object)
    (call : Call Part Value) (object : Object) :
    on (zoom part putBack call) object =
      ((on call (part object)).1, putBack object (on call (part object)).2) := rfl

/-- A call on the first of two objects. -/
def onFirst (call : Call Object Value) : Call (Object × Other) Value :=
  zoom Prod.fst (fun (_, other) object => (object, other)) call

@[simp] theorem on_onFirst (call : Call Object Value) (object : Object) (other : Other) :
    on (onFirst call) (object, other) = ((on call object).1, (on call object).2, other) := rfl

/-- A call that writes into a buffer, on a buffer of its own. -/
def into (dest : Buffer) (call : Call (Object × Buffer) Unit) : Call Object Buffer := do
  let (outcome, object, dest) := call.on (← get, dest)
  set object
  let () ← outcome
  return dest

theorem on_into (dest : Buffer) (call : Call (Object × Buffer) Unit) (object : Object) :
    on (into dest call) object =
      match on call (object, dest) with
      | (.ok (), object, dest) => (.ok dest, object)
      | (.error failure, object, _) => (.error failure, object) := by
  rcases outcome : on call (object, dest) with ⟨failure | value, left, filled⟩ <;>
  · rw [into, on_bind, on_get]
    simp only [outcome]
    rfl

section Reads

/-! What can be read by means of one call, which writes the next bytes into a region of a buffer
that is given by offset and length. -/

variable (readInto : UInt64 → UInt64 → Call (Object × Buffer) Unit)

def fillBy : Call (Object × Buffer) Unit := do
  let (_, dest) ← get
  readInto 0 dest.size

def takeBy (count : UInt64) : Call Object Bytes := do
  return (← (fillBy readInto).into (Buffer.zeros count)).bytes

theorem on_takeBy (count : UInt64) (object : Object) :
    on (takeBy readInto count) object =
      match on (fillBy readInto) (object, Buffer.zeros count) with
      | (.ok (), object, dest) => (.ok dest.bytes, object)
      | (.error failure, object, _) => (.error failure, object) := by
  rw [takeBy, on_bind, on_into]
  rcases on (fillBy readInto) (object, Buffer.zeros count) with ⟨_ | _, _, _⟩ <;> rfl

def byteBy : Call Object UInt8 := do
  return (← takeBy readInto 1).headD 0

/-- The next four bytes as a number, the least significant first. -/
def word32By : Call Object UInt32 := do
  return (Bytes.toNatLittle (← takeBy readInto 4)).toUInt32

def word64By : Call Object UInt64 := do
  return (Bytes.toNatLittle (← takeBy readInto 8)).toUInt64

end Reads

/-- What a call makes of an object. If it fails, there is none. -/
def made (call : Call Object Unit) (object : Object) : Except Failure Object :=
  match call.on object with
  | (.ok (), object) => .ok object
  | (.error failure, _) => .error failure

theorem made_eq_ok {call : Call Object Unit} {object next : Object}
    (done : call.on object = (.ok (), next)) : call.made object = .ok next := by
  rw [made, done]

end Call

inductive Reply where
  | done
  | flag (value : Bool)
  | number (value : Nat)
  | text (value : String)
  | bytes (value : Bytes)
  | word (value : UInt64)
  | written (dest : Buffer)
  | failed (failure : Failure)
  /-- The call failed and left this buffer. -/
  | refused (dest : Buffer) (failure : Failure)
  deriving DecidableEq

namespace Reply

variable {Object Value : Type}

def ofCall (reply : Value → Reply) (call : Call Object Value) (object : Object) : Reply × Object :=
  match call.on object with
  | (.ok value, object) => (reply value, object)
  | (.error failure, object) => (failed failure, object)

theorem ofCall_bind_pure {Other : Type} (reply : Other → Reply) (call : Call Object Value)
    (result : Value → Other) (object : Object) :
    ofCall reply (call >>= fun value => pure (result value)) object =
      ofCall (fun value => reply (result value)) call object := by
  rw [ofCall, ofCall, Call.on_bind]
  rcases call.on object with ⟨_ | _, _⟩ <;> rfl

/-- The reply of a call that writes into a buffer shows the buffer that the call leaves. -/
def ofWrite (dest : Buffer) (call : Call (Object × Buffer) Unit) (object : Object) :
    Reply × Object :=
  match call.on (object, dest) with
  | (.ok (), object, dest) => (written dest, object)
  | (.error failure, object, dest) => (refused dest failure, object)

end Reply

end TlsKeys
