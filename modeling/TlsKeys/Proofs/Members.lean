import TlsKeys.Proofs.Scripts

/-!
One member among the others of its family.

A member keeps its place. Of all that is done to a family only the calls on a
member change it, and each of these finds it as the one before left it. So
whatever stands between them, the calls on a member are one script on it
(`run_member`).
-/

namespace TlsKeys.Family

variable {Object Op : Type}

namespace Command

/-- The operation, if the command is a call on the member at this place. -/
def opOn? (index : Nat) : Command Object Op → Option Op
  | .call place op => if place = index then some op else none
  | _ => none

theorem opOn?_call_self (index : Nat) (op : Op) :
    (Command.call index op : Command Object Op).opOn? index = some op := if_pos rfl

end Command

def opsOn (index : Nat) (commands : List (Command Object Op)) : List Op :=
  commands.filterMap (·.opOn? index)

/-- The answers, among those to all the commands, to the calls on the member at this place. -/
def answersOn (index : Nat) : List (Command Object Op) → List Answer → List Answer
  | command :: commands, answer :: answers =>
    match command.opOn? index with
    | some _ => answer :: answersOn index commands answers
    | none => answersOn index commands answers
  | _, _ => []

section Lists

variable {index : Nat} {command : Command Object Op} {op : Op}

theorem opsOn_append (first second : List (Command Object Op)) :
    opsOn index (first ++ second) = opsOn index first ++ opsOn index second :=
  List.filterMap_append

theorem opsOn_cons_some (calls : command.opOn? index = some op)
    (commands : List (Command Object Op)) :
    opsOn index (command :: commands) = op :: opsOn index commands :=
  List.filterMap_cons_some calls

theorem opsOn_cons_none (other : command.opOn? index = none)
    (commands : List (Command Object Op)) :
    opsOn index (command :: commands) = opsOn index commands :=
  List.filterMap_cons_none other

end Lists

theorem getElem?_append_member {family : Family Object} {index : Nat} {object : Object}
    (found : family[index]? = some object) (member : Object) :
    (family ++ [member])[index]? = some object := by
  have within : index < family.length := (List.getElem?_eq_some_iff.mp found).1
  rw [List.getElem?_append_left within, found]

variable [Copyable Object] {call : Op → Object → Reply × Object}

theorem run_cons (command : Command Object Op) (commands : List (Command Object Op))
    (family : Family Object) :
    run call (command :: commands) family =
      ((step call command family).1 :: (run call commands (step call command family).2).1,
        (run call commands (step call command family).2).2) := rfl

theorem run_append (first second : List (Command Object Op)) (family : Family Object) :
    run call (first ++ second) family =
      ((run call first family).1 ++ (run call second (run call first family).2).1,
        (run call second (run call first family).2).2) := by
  induction first generalizing family with
  | nil => rfl
  | cons command first ih => rw [List.cons_append, run_cons, ih, run_cons, List.cons_append]

/-- Each command is answered by the family that the commands before it left. -/
theorem getElem?_run {commands : List (Command Object Op)} {place : Nat}
    {command : Command Object Op} (given : commands[place]? = some command)
    (family : Family Object) :
    (run call commands family).1[place]? =
      some (step call command (run call (commands.take place) family).2).1 := by
  induction commands generalizing place family with
  | nil => cases given
  | cons first commands ih =>
    cases place with
    | zero =>
      cases given
      rfl
    | succ place => exact ih given (step call first family).2

section Member

variable {family : Family Object} {index : Nat} {object : Object}

theorem step_call {op : Op} (found : family[index]? = some object) :
    step call (.call index op) family =
      (.reply (call op object).1, family.set index (call op object).2) := by
  rw [step, found]

theorem step_copy (found : family[index]? = some object) :
    step call (.copy index) family = (.index family.length, family ++ [object]) := by
  simp only [step, found, Copyable.copy_eq]

theorem step_of_opOn? (call : Op → Object → Reply × Object) {command : Command Object Op}
    {op : Op} (found : family[index]? = some object) (calls : command.opOn? index = some op) :
    (step call command family).1 = .reply (call op object).1 ∧
      (step call command family).2[index]? = some (call op object).2 := by
  rcases command with member | original | ⟨place, asked⟩
  case call =>
    simp only [Command.opOn?, Option.ite_none_right_eq_some, Option.some_inj] at calls
    obtain ⟨rfl, rfl⟩ := calls
    have within : place < family.length := (List.getElem?_eq_some_iff.mp found).1
    rw [step_call found]
    exact ⟨rfl, List.getElem?_set_self within⟩
  all_goals cases calls

/-- What is done to other members leaves a member as it was, at its place. -/
theorem step_of_not_opOn? (call : Op → Object → Reply × Object) {command : Command Object Op}
    (found : family[index]? = some object) (other : command.opOn? index = none) :
    (step call command family).2[index]? = some object := by
  cases command with
  | add member => exact getElem?_append_member found member
  | copy original =>
    rw [step]
    split
    · exact getElem?_append_member found _
    · exact found
  | call place op =>
    rw [step]
    split
    · have elsewhere : place ≠ index := by
        intro same
        rw [same, Command.opOn?_call_self] at other
        cases other
      rw [List.getElem?_set_ne elsewhere, found]
    · exact found

/-- A member answers, and is left, as by the script of the calls on it alone. -/
theorem run_member (commands : List (Command Object Op)) (found : family[index]? = some object) :
    answersOn index commands (run call commands family).1 =
        (runScript call (opsOn index commands) object).1.map .reply ∧
      (run call commands family).2[index]? =
        some (runScript call (opsOn index commands) object).2 := by
  induction commands generalizing family object with
  | nil => exact ⟨rfl, found⟩
  | cons command commands ih =>
    rw [run_cons]
    cases calls : command.opOn? index with
    | some op =>
      obtain ⟨answer, there⟩ := step_of_opOn? call found calls
      obtain ⟨answers, left⟩ := ih there
      rw [opsOn_cons_some calls, runScript_cons, List.map_cons, answersOn, calls, answer, ← answers]
      exact ⟨rfl, left⟩
    | none =>
      obtain ⟨answers, left⟩ := ih (step_of_not_opOn? call found calls)
      rw [opsOn_cons_none calls, answersOn, calls]
      exact ⟨answers, left⟩

end Member

end TlsKeys.Family
