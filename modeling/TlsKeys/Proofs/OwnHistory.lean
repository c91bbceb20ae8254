import Mathlib.Data.List.Induction
import TlsKeys.Generator.Command
import TlsKeys.Mac
import TlsKeys.Proofs.Members

/-!
The history of one member, and the replay of it.

What a member is made of can be read off the commands alone. It was added, and
then called; or it was copied, so that its history begins with that of the
original up to the copy. Replayed on one object, this history gives all that
the member answers and what it is in the end, so nothing that is done to other
members shows in it (`Isolated`).
-/

namespace TlsKeys

namespace Family

variable {Object Op : Type}

/-- How many members there are after the command; there may be no original to copy. -/
def Command.grown (count : Nat) : Command Object Op → Nat
  | .add _ => count + 1
  | .copy original => if original < count then count + 1 else count
  | .call .. => count

def size (commands : List (Command Object Op)) : Nat :=
  commands.foldl Command.grown 0

theorem size_concat (commands : List (Command Object Op)) (command : Command Object Op) :
    size (commands ++ [command]) = command.grown (size commands) := by
  rw [size, List.foldl_append]
  rfl

section Length

variable [Copyable Object] {call : Op → Object → Reply × Object}

theorem length_step (command : Command Object Op) (family : Family Object) :
    (step call command family).2.length = command.grown family.length := by
  cases command with
  | add member => exact List.length_append
  | copy original =>
    rw [step, Command.grown]
    by_cases present : original < family.length
    · rw [List.getElem?_eq_getElem present, if_pos present]
      exact List.length_append
    · rw [List.getElem?_eq_none (Nat.le_of_not_lt present), if_neg present]
  | call index op =>
    rw [step, Command.grown]
    split
    · exact List.length_set
    · rfl

theorem length_run_eq_foldl (commands : List (Command Object Op)) (family : Family Object) :
    (run call commands family).2.length = commands.foldl Command.grown family.length := by
  induction commands generalizing family with
  | nil => rfl
  | cons command commands ih => rw [run_cons, ih, length_step, List.foldl_cons]

theorem length_run_nil (call : Op → Object → Reply × Object) (commands : List (Command Object Op)) :
    (run call commands []).2.length = size commands :=
  length_run_eq_foldl commands []

theorem getElem?_append_singleton (commands : List (Command Object Op)) (member : Object) :
    ((run call commands []).2 ++ [member])[size commands]? = some member := by
  rw [← length_run_nil call, List.getElem?_concat_length]

end Length

/-- The object that a member began as, and the calls that it has had since, those that its original
had before the copy included. -/
inductive OwnHistory : List (Command Object Op) → Nat → Object → List Op → Prop where
  | added {before after first} :
      OwnHistory (before ++ .add first :: after) (size before) first (opsOn (size before) after)
  | copied {before after original first ops} :
      OwnHistory before original first ops →
      OwnHistory (before ++ .copy original :: after) (size before) first
        (ops ++ opsOn (size before) after)

namespace OwnHistory

variable {commands : List (Command Object Op)} {index : Nat} {first : Object} {ops : List Op}

/-- To replay a member's own history on the object it began as gives what it is. -/
theorem replay [Copyable Object] (call : Op → Object → Reply × Object)
    (own : OwnHistory commands index first ops) :
    (run call commands []).2[index]? = some (runScript call ops first).2 := by
  induction own with
  | @added before after first =>
    rw [run_append, run_cons]
    exact (run_member after (getElem?_append_singleton before first)).2
  | @copied before after original first ops _ ih =>
    rw [run_append, run_cons, step_copy ih, runScript_append]
    exact (run_member after (getElem?_append_singleton before _)).2

theorem lt_size (own : OwnHistory commands index first ops) : index < size commands := by
  let plain : Copyable Object := { copy := id, copy_eq := fun _ => rfl }
  let idle (_ : Op) (object : Object) : Reply × Object := (.done, object)
  rw [← length_run_nil idle]
  exact (List.getElem?_eq_some_iff.mp (own.replay idle)).1

theorem append (own : OwnHistory commands index first ops) (more : List (Command Object Op)) :
    OwnHistory (commands ++ more) index first (ops ++ opsOn index more) := by
  cases own with
  | added =>
    rw [List.append_assoc, List.cons_append, ← opsOn_append]
    exact .added
  | copied before =>
    rw [List.append_assoc, List.cons_append, List.append_assoc, ← opsOn_append]
    exact .copied before

/-- The last command found the member there, or it made the member. -/
theorem of_concat {command : Command Object Op}
    (own : OwnHistory (commands ++ [command]) index first ops) :
    (∃ earlier, OwnHistory commands index first earlier ∧
        ops = earlier ++ opsOn index [command]) ∨
      index = size commands ∧ (command = .add first ∧ ops = [] ∨
        ∃ original, command = .copy original ∧ OwnHistory commands original first ops) := by
  generalize whole : commands ++ [command] = all at own
  -- The last command is the one that made the member, or the last of those after it.
  cases own with
  | @added before after =>
    rcases List.eq_nil_or_concat after with rfl | ⟨after, last, rfl⟩
    · obtain ⟨rfl, added⟩ := List.append_inj' whole rfl
      exact .inr ⟨rfl, .inl ⟨List.singleton_inj.mp added, rfl⟩⟩
    · rw [List.concat_eq_append, ← List.cons_append, ← List.append_assoc] at whole
      obtain ⟨rfl, same⟩ := List.append_inj' whole rfl
      rw [List.concat_eq_append, opsOn_append, same]
      exact .inl ⟨_, .added, rfl⟩
  | @copied before after original _ past own =>
    rcases List.eq_nil_or_concat after with rfl | ⟨after, last, rfl⟩
    · obtain ⟨rfl, copied⟩ := List.append_inj' whole rfl
      refine .inr ⟨rfl, .inr ⟨original, List.singleton_inj.mp copied, ?_⟩⟩
      rw [opsOn, List.filterMap_nil, List.append_nil]
      exact own
    · rw [List.concat_eq_append, ← List.cons_append, ← List.append_assoc] at whole
      obtain ⟨rfl, same⟩ := List.append_inj' whole rfl
      rw [List.concat_eq_append, opsOn_append, same, ← List.append_assoc]
      exact .inl ⟨_, .copied own, rfl⟩

theorem exists_of_lt_size (present : index < size commands) :
    ∃ first ops, OwnHistory commands index first ops := by
  induction commands using List.reverseRecOn generalizing index with
  | nil => cases present
  | append_singleton commands command ih =>
    by_cases older : index < size commands
    · obtain ⟨first, ops, own⟩ := ih older
      exact ⟨first, _, own.append [command]⟩
    · rw [size_concat] at present
      cases command with
      | add first =>
        obtain rfl : index = size commands := by
          rw [Command.grown] at present
          omega
        exact ⟨first, _, .added⟩
      | copy original =>
        rw [Command.grown] at present
        split at present
        next there =>
          obtain rfl : index = size commands := by omega
          obtain ⟨first, ops, own⟩ := ih there
          exact ⟨first, _, .copied own⟩
        next => exact absurd present older
      | call place op => exact absurd present older

theorem unique (own : OwnHistory commands index first ops) {other : Object} {others : List Op}
    (another : OwnHistory commands index other others) : first = other ∧ ops = others := by
  induction commands using List.reverseRecOn generalizing index first ops other others with
  | nil => exact absurd own.lt_size (Nat.not_lt_zero index)
  | append_singleton commands command ih =>
    rcases own.of_concat with ⟨earlier, older, rfl⟩ | ⟨rfl, made⟩
    · rcases another.of_concat with ⟨past, otherOlder, rfl⟩ | ⟨rfl, _⟩
      · obtain ⟨rfl, rfl⟩ := ih older otherOlder
        exact ⟨rfl, rfl⟩
      · exact absurd older.lt_size (Nat.lt_irrefl _)
    · rcases another.of_concat with ⟨past, otherOlder, rfl⟩ | ⟨_, remade⟩
      · exact absurd otherOlder.lt_size (Nat.lt_irrefl _)
      · rcases made with ⟨rfl, rfl⟩ | ⟨original, rfl, older⟩
        · rcases remade with ⟨same, rfl⟩ | ⟨_, copied, _⟩
          · cases same
            exact ⟨rfl, rfl⟩
          · cases copied
        · rcases remade with ⟨added, _⟩ | ⟨_, same, otherOlder⟩
          · cases added
          · cases same
            exact ih older otherOlder

theorem first_mem (own : OwnHistory commands index first ops) : .add first ∈ commands := by
  induction own with
  | added => exact List.mem_append_right _ List.mem_cons_self
  | copied _ ih => exact List.mem_append_left _ ih

/-- A member answers a call as the object it began as, after the replay of its own history. -/
theorem answer [Copyable Object] {place : Nat} {op : Op} (call : Op → Object → Reply × Object)
    (asked : commands[place]? = some (.call index op))
    (own : OwnHistory (commands.take place) index first ops) :
    ∃ reply, (run call commands []).1[place]? = some (.reply reply) ∧
      (runScript call (ops ++ [op]) first).1.getLast? = some reply := by
  refine ⟨(call op (runScript call ops first).2).1, ?_, ?_⟩
  · rw [getElem?_run asked, step_call (own.replay call)]
  · rw [runScript_append]
    exact List.getLast?_concat

end OwnHistory

variable [Copyable Object] {call : Op → Object → Reply × Object}

/-- Two members that are alike stay alike under the same calls, whatever else is done to the
families they are in. -/
theorem run_alike {family other : Family Object} {index place : Nat} {object : Object}
    (here : family[index]? = some object) (there : other[place]? = some object)
    {commands others : List (Command Object Op)}
    (same : opsOn index commands = opsOn place others) :
    answersOn index commands (run call commands family).1 =
        answersOn place others (run call others other).1 ∧
      (run call commands family).2[index]? = (run call others other).2[place]? := by
  rw [(run_member commands here).1, (run_member commands here).2, (run_member others there).1,
    (run_member others there).2, same]
  exact ⟨rfl, rfl⟩

/-- The members keep to themselves. -/
structure Isolated (call : Op → Object → Reply × Object) (commands : List (Command Object Op)) :
    Prop where
  /-- Every member has a history of its own, and only one. -/
  history : ∀ index, index < (run call commands []).2.length →
    ∃! own : Object × List Op, OwnHistory commands index own.1 own.2
  /-- It begins with an object that was added. -/
  begun : ∀ index first ops, OwnHistory commands index first ops → .add first ∈ commands
  /-- The replay of its own history gives what a member is. -/
  replayed : ∀ index first ops, OwnHistory commands index first ops →
    (run call commands []).2[index]? = some (runScript call ops first).2
  /-- The replay up to a call, and then the call, gives the answer to the call. -/
  answered : ∀ place index op first ops, commands[place]? = some (.call index op) →
    OwnHistory (commands.take place) index first ops →
      ∃ reply, (run call commands []).1[place]? = some (.reply reply) ∧
        (runScript call (ops ++ [op]) first).1.getLast? = some reply
  /-- What else might have been done from some time on does not show in a member. -/
  undisturbed : ∀ before after others index, commands = before ++ after →
    let family := (run call before []).2
    index < family.length → opsOn index after = opsOn index others →
      answersOn index after (run call after family).1 =
          answersOn index others (run call others family).1 ∧
        (run call after family).2[index]? = (run call others family).2[index]?
  /-- After a copy, the original and the copy answer alike if they are called alike. -/
  copied : ∀ before original after, commands = before ++ .copy original :: after →
    let earlier := (run call before []).2
    let family := (step call (.copy original) earlier).2
    original < earlier.length → opsOn original after = opsOn earlier.length after →
      answersOn original after (run call after family).1 =
          answersOn earlier.length after (run call after family).1 ∧
        (run call after family).2[original]? = (run call after family).2[earlier.length]?

theorem isolated (call : Op → Object → Reply × Object) (commands : List (Command Object Op)) :
    Isolated call commands where
  history := by
    intro index present
    rw [length_run_nil] at present
    obtain ⟨first, ops, own⟩ := OwnHistory.exists_of_lt_size present
    refine ⟨(first, ops), own, ?_⟩
    rintro ⟨other, others⟩ another
    obtain ⟨rfl, rfl⟩ := own.unique another
    rfl
  begun := fun _ _ _ own => own.first_mem
  replayed := fun _ _ _ own => own.replay call
  answered := fun _ _ _ _ _ asked own => own.answer call asked
  undisturbed := by
    intro before after others index _ family present same
    have there := List.getElem?_eq_getElem present
    exact run_alike there there same
  copied := by
    intro before original after _ earlier family present same
    have there := List.getElem?_eq_getElem present
    have larger : family = earlier ++ [earlier[original]] := by
      simp only [family, step_copy there]
    rw [larger]
    exact run_alike (getElem?_append_member there _) List.getElem?_concat_length same

end Family

/-- However a family of generators came about, and whatever was asked of its members in whatever
order, refused or not, each member answers and is left as one generator, made afresh, that replays
the history of that member alone. The same is so of families of codes and of expansions. -/
theorem members_isolated :
    (∀ commands : List Generator.Command,
      Generator.run commands [] =
          Family.run Generator.step (commands.map Generator.Command.plain) [] ∧
        Family.Isolated Generator.step (commands.map Generator.Command.plain) ∧
        ∀ index first ops,
          Family.OwnHistory (commands.map Generator.Command.plain) index first ops →
            first = .uninitialized ∨ ∃ secret seed, Generator.ofSecret secret seed = .ok first) ∧
      (∀ hash (commands : List (Family.Command (Mac hash) Mac.Op)),
        Family.Isolated Mac.step commands) ∧
      ∀ hash (commands : List (Family.Command (Expansion hash) Expansion.Op)),
        Family.Isolated Expansion.step commands := by
  refine ⟨fun commands => ⟨Generator.run_eq_plain commands [], Family.isolated _ _, ?_⟩,
    fun _ => Family.isolated _, fun _ => Family.isolated _⟩
  intro index first ops own
  obtain ⟨command, _, made⟩ := List.mem_map.mp own.first_mem
  cases command with
  | new =>
    cases made
    exact .inl rfl
  | ofSecret secret seed =>
    cases made
    exact .inr ⟨secret, seed, Generator.ofSecret_eq_ok secret seed⟩
  | _ => cases made

/-- Copies before the first start and in the middle of a buffer, and a copy of a copy. -/
theorem members_isolated_copy_of_copy :
    let start := Generator.Op.configure (.ofBoth [1, 2, 3] [4])
    let restart := Generator.Op.configure (.ofSeed [5])
    let take (count : UInt64) := Generator.Op.read (.take count)
    let commands : List Generator.Command :=
      [.new, .copy 0, .call 0 start, .call 0 (take 37), .copy 0, .call 0 restart,
        .call 1 restart, .call 2 (take 50), .copy 2, .call 2 restart, .call 3 (take 5)]
    let plain := commands.map Generator.Command.plain
    let run := Generator.run commands []
    let replay (ops : List Generator.Op) := runScript Generator.step ops .uninitialized
    Family.OwnHistory plain 1 .uninitialized [restart] ∧
      Family.OwnHistory plain 3 .uninitialized [start, take 37, take 50, take 5] ∧
      run.2[1]? = some (replay [restart]).2 ∧
      run.2[3]? = some (replay [start, take 37, take 50, take 5]).2 ∧
      ∃ reply, run.1[10]? = some (.reply reply) ∧
        (replay [start, take 37, take 50, take 5]).1.getLast? = some reply := by
  intro start restart take commands plain run replay
  obtain ⟨same, isolated, _⟩ := members_isolated.1 commands
  have fresh : Family.OwnHistory (plain.take 1) 0 .uninitialized [] :=
    @Family.OwnHistory.added _ _ [] [] Generator.uninitialized
  have early : Family.OwnHistory plain 1 .uninitialized [restart] :=
    @Family.OwnHistory.copied _ _ (plain.take 1) (plain.drop 2) 0 _ _ fresh
  have original : Family.OwnHistory (plain.take 4) 0 .uninitialized [start, take 37] :=
    @Family.OwnHistory.added _ _ [] (plain.take 4).tail .uninitialized
  have middle : Family.OwnHistory (plain.take 8) 2 .uninitialized [start, take 37, take 50] :=
    @Family.OwnHistory.copied _ _ (plain.take 4) ((plain.take 8).drop 5) 0 _ _ original
  have last : Family.OwnHistory (plain.take 10) 3 .uninitialized [start, take 37, take 50] :=
    @Family.OwnHistory.copied _ _ (plain.take 8) ((plain.take 10).drop 9) 2 _ _ middle
  have whole := last.append (plain.drop 10)
  rw [show run = _ from same]
  exact ⟨early, whole, isolated.replayed 1 _ _ early, isolated.replayed 3 _ _ whole,
    isolated.answered 10 3 (take 5) _ _ rfl last⟩

end TlsKeys
