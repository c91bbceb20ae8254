import TlsKeys.Proofs.Members

/-!
Families with a memory: beside each member stand the calls that made it what it
is, with their replies. A copy takes the calls of its original along, and goes
on from there with calls of its own.

The memory only listens. A family with it gives the same answers and holds the
same members as the family without it (`run_view`, `map_object_recorded`), so
what is proved of members and their histories holds of plain families.
-/

namespace TlsKeys

variable {Object Op : Type}

def Reply.succeeded : Reply → Bool
  | failed _ => false
  | refused .. => false
  | _ => true

structure Event (Op : Type) where
  op : Op
  reply : Reply

/-- Calls with their replies, the latest first. -/
abbrev History (Op : Type) : Type :=
  List (Event Op)

structure Recorded (Object Op : Type) where
  object : Object
  history : History Op

instance [Copyable Object] : Copyable (Recorded Object Op) where
  copy recorded :=
    { object := Copyable.copy recorded.object
      history := recorded.history }
  copy_eq recorded := by rw [Copyable.copy_eq]

def Recorded.step (call : Op → Object → Reply × Object) (op : Op)
    (recorded : Recorded Object Op) : Reply × Recorded Object Op :=
  let (reply, object) := call op recorded.object
  (reply, ⟨object, ⟨op, reply⟩ :: recorded.history⟩)

theorem Recorded.call_object (call : Op → Object → Reply × Object) (op : Op)
    (recorded : Recorded Object Op) :
    call op recorded.object =
      ((step call op recorded).1, (step call op recorded).2.object) := rfl

namespace Family

/-- What is done to a family whose new members all begin alike. -/
inductive Act (Op : Type) where
  | new
  | copy (index : Nat)
  | call (index : Nat) (op : Op)
  deriving DecidableEq

def Act.command (fresh : Object) : Act Op → Command Object Op
  | new => .add fresh
  | copy index => .copy index
  | call index op => .call index op

variable [Copyable Object]

def after (call : Op → Object → Reply × Object) (fresh : Object) (acts : List (Act Op)) :
    Family Object :=
  (run call (acts.map (Act.command fresh)) []).2

/-- The same family, each member with its history. -/
def recorded (call : Op → Object → Reply × Object) (fresh : Object) (acts : List (Act Op)) :
    Family (Recorded Object Op) :=
  after (Recorded.step call) ⟨fresh, []⟩ acts

def histories (call : Op → Object → Reply × Object) (fresh : Object) (acts : List (Act Op)) :
    List (History Op) :=
  (recorded call fresh acts).map (·.history)

variable {call : Op → Object → Reply × Object} {fresh : Object}

section Invariant

variable {Holds : Object → Prop}

theorem forall_mem_step (begins : Holds fresh)
    (keeps : ∀ op object, Holds object → Holds (call op object).2) (act : Act Op)
    {family : Family Object} (holds : ∀ member ∈ family, Holds member) :
    ∀ member ∈ (step call (act.command fresh) family).2, Holds member := by
  intro member present
  cases act with
  | new =>
    rcases List.mem_append.mp present with old | added
    · exact holds member old
    · rw [List.mem_singleton.mp added]
      exact begins
  | copy index =>
    simp only [Act.command, step] at present
    split at present
    next original found =>
      rcases List.mem_append.mp present with old | added
      · exact holds member old
      · rw [List.mem_singleton.mp added, Copyable.copy_eq]
        exact holds original (List.mem_of_getElem? found)
    next => exact holds member present
  | call index op =>
    simp only [Act.command, step] at present
    split at present
    next called found =>
      rcases List.mem_or_eq_of_mem_set present with old | changed
      · exact holds member old
      · rw [changed]
        exact keeps op called (holds called (List.mem_of_getElem? found))
    next => exact holds member present

theorem forall_mem_run (begins : Holds fresh)
    (keeps : ∀ op object, Holds object → Holds (call op object).2) (acts : List (Act Op))
    {family : Family Object} (holds : ∀ member ∈ family, Holds member) :
    ∀ member ∈ (run call (acts.map (Act.command fresh)) family).2, Holds member := by
  induction acts generalizing family with
  | nil => exact holds
  | cons act acts ih => exact ih (forall_mem_step begins keeps act holds)

/-- What a fresh object has and every call keeps, every member has. -/
theorem forall_mem_after (begins : Holds fresh)
    (keeps : ∀ op object, Holds object → Holds (call op object).2) (acts : List (Act Op)) :
    ∀ member ∈ after call fresh acts, Holds member :=
  forall_mem_run begins keeps acts (List.forall_mem_nil _)

end Invariant

section View

variable {Viewed : Type} [Copyable Viewed] {callViewed : Op → Viewed → Reply × Viewed}
  (view : Object → Viewed)

theorem step_view (fresh : Object) (act : Act Op) {family : Family Object}
    (respects : ∀ op, ∀ member ∈ family, callViewed op (view member) =
      ((call op member).1, view (call op member).2)) :
    step callViewed (act.command (view fresh)) (family.map view) =
      ((step call (act.command fresh) family).1,
        (step call (act.command fresh) family).2.map view) := by
  cases act with
  | new => simp [Act.command, step]
  | copy index => cases found : family[index]? <;> simp [Act.command, step, found]
  | call index op =>
    cases found : family[index]? with
    | none => simp [Act.command, step, found]
    | some member =>
      have respected := respects op member (List.mem_of_getElem? found)
      simp [Act.command, step, found, respected, List.map_set]

/-- A view that every call respects sees the same answers, and the members as it views them. It is
enough that a call respects it on what every member has. -/
theorem run_view {Holds : Object → Prop} (begins : Holds fresh)
    (keeps : ∀ op object, Holds object → Holds (call op object).2)
    (respects : ∀ op object, Holds object → callViewed op (view object) =
      ((call op object).1, view (call op object).2))
    (acts : List (Act Op)) {family : Family Object} (holds : ∀ member ∈ family, Holds member) :
    run callViewed (acts.map (Act.command (view fresh))) (family.map view) =
      ((run call (acts.map (Act.command fresh)) family).1,
        (run call (acts.map (Act.command fresh)) family).2.map view) := by
  induction acts generalizing family with
  | nil => rfl
  | cons act acts ih =>
    have seen := step_view view fresh act fun op member there => respects op member (holds _ there)
    simp only [List.map_cons, run, seen, ih (forall_mem_step begins keeps act holds)]

theorem after_view {Holds : Object → Prop} (begins : Holds fresh)
    (keeps : ∀ op object, Holds object → Holds (call op object).2)
    (respects : ∀ op object, Holds object → callViewed op (view object) =
      ((call op object).1, view (call op object).2))
    (acts : List (Act Op)) :
    after callViewed (view fresh) acts = (after call fresh acts).map view :=
  congrArg Prod.snd (run_view view begins keeps respects acts (List.forall_mem_nil _))

end View

/-- A member keeps its place, and of what is done later only the calls on it change it. -/
theorem getElem?_after_append {acts : List (Act Op)} {index : Nat} {object : Object}
    (found : (after call fresh acts)[index]? = some object) (more : List (Act Op)) :
    (after call fresh (acts ++ more))[index]? =
      some (runScript call (opsOn index (more.map (Act.command fresh))) object).2 := by
  rw [after, List.map_append, run_append]
  exact (run_member _ found).2

theorem getElem?_after_call {acts : List (Act Op)} {index : Nat} {object : Object}
    (found : (after call fresh acts)[index]? = some object) (op : Op) :
    (after call fresh (acts ++ [.call index op]))[index]? = some (call op object).2 := by
  rw [getElem?_after_append found, List.map_singleton, Act.command, opsOn,
    List.filterMap_cons_some (Command.opOn?_call_self index op)]
  rfl

/-- A copy comes last, and is what its original is. -/
theorem getElem?_after_copy {acts : List (Act Op)} {index place : Nat} {object : Object}
    (found : (after call fresh acts)[index]? = some object)
    (members : (after call fresh acts).length = place) :
    (after call fresh (acts ++ [.copy index]))[place]? = some object := by
  have copied : step call (.copy index) (after call fresh acts) = _ := step_copy found
  rw [after, List.map_append, run_append, ← members]
  change (step call (.copy index) (after call fresh acts)).2[(after call fresh acts).length]? = _
  rw [copied]
  exact List.getElem?_concat_length

theorem map_object_recorded (acts : List (Act Op)) :
    (recorded call fresh acts).map (·.object) = after call fresh acts :=
  (after_view Recorded.object trivial (fun _ _ (_ : True) => trivial)
    (fun op recorded _ => Recorded.call_object call op recorded) acts).symm

theorem exists_history {acts : List (Act Op)} {index : Nat} {object : Object}
    (found : (after call fresh acts)[index]? = some object) :
    ∃ history, (histories call fresh acts)[index]? = some history ∧
      ⟨object, history⟩ ∈ recorded call fresh acts := by
  rw [← map_object_recorded, List.getElem?_map] at found
  obtain ⟨⟨_, history⟩, there, rfl⟩ := Option.map_eq_some_iff.mp found
  refine ⟨history, ?_, List.mem_of_getElem? there⟩
  rw [histories, List.getElem?_map, there]
  rfl

/-- What holds at first and after every call holds of each member with its history. -/
theorem exists_history_holding {Holds : Recorded Object Op → Prop} (begins : Holds ⟨fresh, []⟩)
    (keeps : ∀ op recorded, Holds recorded → Holds (Recorded.step call op recorded).2)
    {acts : List (Act Op)} {index : Nat} {object : Object}
    (found : (after call fresh acts)[index]? = some object) :
    ∃ history, (histories call fresh acts)[index]? = some history ∧ Holds ⟨object, history⟩ := by
  obtain ⟨history, there, member⟩ := exists_history found
  exact ⟨history, there, forall_mem_after begins keeps acts _ member⟩

end Family

end TlsKeys
