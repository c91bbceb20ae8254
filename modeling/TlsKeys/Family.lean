import TlsKeys.Call
import TlsKeys.Copyable

/-!
Scripts of operations on one object, and families of objects that grow by new
members and by copies of members.

A member is named by its place in the family, and places never change.
-/

namespace TlsKeys

variable {Object Op : Type}

def runScript (step : Op → Object → Reply × Object) : List Op → Object → List Reply × Object
  | [], object => ([], object)
  | op :: ops, object =>
    let (reply, object) := step op object
    let (replies, object) := runScript step ops object
    (reply :: replies, object)

theorem runScript_append (step : Op → Object → Reply × Object) (first second : List Op)
    (object : Object) :
    runScript step (first ++ second) object =
      let (replies, object) := runScript step first object
      let (more, object) := runScript step second object
      (replies ++ more, object) := by
  induction first generalizing object with
  | nil => rfl
  | cons op first ih => simp [runScript, ih]

abbrev Family (Object : Type) : Type :=
  List Object

namespace Family

inductive Command (Object Op : Type) where
  | add (member : Object)
  | copy (index : Nat)
  | call (index : Nat) (op : Op)

inductive Answer where
  | index (index : Nat)
  | reply (reply : Reply)
  | absent
  deriving DecidableEq

variable [Copyable Object]

def step (call : Op → Object → Reply × Object) (command : Command Object Op)
    (family : Family Object) : Answer × Family Object :=
  match command with
  | .add member => (.index family.length, family ++ [member])
  | .copy index =>
    match family[index]? with
    | some member => (.index family.length, family ++ [Copyable.copy member])
    | none => (.absent, family)
  | .call index op =>
    match family[index]? with
    | some member =>
      let (reply, member) := call op member
      (.reply reply, family.set index member)
    | none => (.absent, family)

def run (call : Op → Object → Reply × Object) :
    List (Command Object Op) → Family Object → List Answer × Family Object
  | [], family => ([], family)
  | command :: commands, family =>
    let (answer, family) := step call command family
    let (answers, family) := run call commands family
    (answer :: answers, family)

end Family

end TlsKeys
