import TlsKeys.Family
import TlsKeys.Generator.Script

/-!
What is done to a family of generators.

A member comes in without a stream, with the stream of a secret and a seed, or
as a copy of another member. A generator that cannot be made leaves the family
as it was.
-/

namespace TlsKeys.Generator

inductive Command where
  | new
  | ofSecret (secret seed : Bytes)
  | copy (index : Nat)
  | call (index : Nat) (op : Op)
  deriving DecidableEq

def Command.step (command : Command) (family : Family Generator) :
    Family.Answer × Family Generator :=
  match command with
  | .new => Family.step Generator.step (.add uninitialized) family
  | .ofSecret secret seed =>
    match Generator.ofSecret secret seed with
    | .ok generator => Family.step Generator.step (.add generator) family
    | .error failure => (.reply (.failed failure), family)
  | .copy index => Family.step Generator.step (.copy index) family
  | .call index op => Family.step Generator.step (.call index op) family

def run : List Command → Family Generator → List Family.Answer × Family Generator
  | [], family => ([], family)
  | command :: commands, family =>
    let (answer, family) := command.step family
    let (answers, family) := run commands family
    (answer :: answers, family)

/-- As a command on a family of any objects: a new member is given as it is made. -/
def Command.plain : Command → Family.Command Generator Op
  | .new => .add uninitialized
  | .ofSecret secret seed => .add (ready (.ofSecret secret seed))
  | .copy index => .copy index
  | .call index op => .call index op

theorem Command.step_eq_plain (command : Command) (family : Family Generator) :
    command.step family = Family.step Generator.step command.plain family := by
  cases command with
  | ofSecret secret seed => rw [step, ofSecret_eq_ok, plain]
  | _ => rfl

theorem run_eq_plain (commands : List Command) (family : Family Generator) :
    run commands family = Family.run step (commands.map Command.plain) family := by
  induction commands generalizing family with
  | nil => rfl
  | cons command commands ih =>
    simp only [run, List.map_cons, Family.run, command.step_eq_plain, ih]

end TlsKeys.Generator
