import TlsKeys.Family

/-!
What a script of calls on one object keeps, and what its replies tell.

A reply is given by the object as the earlier calls left it. So what the first
object has and every call keeps, each call of the script finds, and a view that
every call respects sees the same replies.
-/

namespace TlsKeys

variable {Object Op : Type} {step : Op → Object → Reply × Object} {ops : List Op} {object : Object}

theorem runScript_cons {op : Op} :
    runScript step (op :: ops) object =
      ((step op object).1 :: (runScript step ops (step op object).2).1,
        (runScript step ops (step op object).2).2) := rfl

section Invariant

variable {Holds : Object → Prop}

theorem holds_runScript (keeps : ∀ op object, Holds object → Holds (step op object).2)
    (holds : Holds object) (ops : List Op) : Holds (runScript step ops object).2 := by
  induction ops generalizing object with
  | nil => exact holds
  | cons op ops ih => exact ih (keeps op object holds)

theorem exists_of_getElem?_runScript
    (keeps : ∀ op object, Holds object → Holds (step op object).2) (holds : Holds object)
    {index : Nat} {op : Op} (asked : ops[index]? = some op) :
    ∃ called, Holds called ∧ (runScript step ops object).1[index]? = some (step op called).1 := by
  induction ops generalizing object index with
  | nil => cases asked
  | cons first rest ih =>
    cases index with
    | zero =>
      cases asked
      exact ⟨object, holds, rfl⟩
    | succ index => exact ih (keeps first object holds) asked

theorem exists_of_mem_zip_runScript
    (keeps : ∀ op object, Holds object → Holds (step op object).2) (holds : Holds object)
    {op : Op} {reply : Reply}
    (asked : (op, reply) ∈ ops.zip (runScript step ops object).1) :
    ∃ called, Holds called ∧ reply = (step op called).1 := by
  obtain ⟨index, found⟩ := List.mem_iff_getElem?.mp asked
  obtain ⟨opThere, replyThere⟩ := List.getElem?_zip_eq_some.mp found
  obtain ⟨called, kept, given⟩ := exists_of_getElem?_runScript keeps holds opThere
  rw [given] at replyThere
  exact ⟨called, kept, (Option.some.inj replyThere).symm⟩

end Invariant

section View

variable {Viewed : Type} {stepViewed : Op → Viewed → Reply × Viewed} (view : Object → Viewed)

/-- A view sees the same replies if every call respects it as long as something holds that the
calls keep. -/
theorem runScript_view_of_holds {Holds : Object → Prop}
    (keeps : ∀ op object, Holds object → Holds (step op object).2)
    (respects : ∀ op object, Holds object → stepViewed op (view object) =
      ((step op object).1, view (step op object).2))
    (ops : List Op) {object : Object} (holds : Holds object) :
    runScript stepViewed ops (view object) =
      ((runScript step ops object).1, view (runScript step ops object).2) := by
  induction ops generalizing object with
  | nil => rfl
  | cons op ops ih => simp only [runScript, respects op object holds, ih (keeps op object holds)]

theorem runScript_view
    (respects : ∀ op object, stepViewed op (view object) =
      ((step op object).1, view (step op object).2))
    (ops : List Op) (object : Object) :
    runScript stepViewed ops (view object) =
      ((runScript step ops object).1, view (runScript step ops object).2) :=
  runScript_view_of_holds view (fun _ _ (_ : True) => trivial)
    (fun op object _ => respects op object) ops trivial

end View

end TlsKeys
