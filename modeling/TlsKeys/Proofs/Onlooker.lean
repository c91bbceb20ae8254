import Mathlib.Data.List.Forall2
import TlsKeys.Generator.Command
import TlsKeys.Proofs.Descriptions
import TlsKeys.Proofs.Refusals

/-!
What an onlooker sees of a script.

An onlooker sees which calls succeed, what the failures say, how many bytes are
delivered, and of every generator whether it is ready and how it is described.
All this can be foreseen from the generators that are ready and from the public
parts of the calls (`Op.foreseen`): secrets and seeds count only as given or not
given, buffers only by their sizes. So two scripts that are the same with these
values blanked are the same to the onlooker.
-/

namespace TlsKeys

section Members

variable {Left Right : Type} {related : Left → Right → Prop} {lefts : List Left}
  {rights : List Right}

theorem getElem?_of_forall₂ (all : List.Forall₂ related lefts rights) (index : Nat) :
    lefts[index]? = none ∧ rights[index]? = none ∨
      ∃ left right, lefts[index]? = some left ∧ rights[index]? = some right ∧
        related left right := by
  induction all generalizing index with
  | nil => exact .inl ⟨rfl, rfl⟩
  | @cons left right _ _ first _ ih =>
    cases index with
    | zero => exact .inr ⟨left, right, rfl, rfl, first⟩
    | succ index => exact ih index

theorem forall₂_set (all : List.Forall₂ related lefts rights) {left : Left} {right : Right}
    (changed : related left right) (index : Nat) :
    List.Forall₂ related (lefts.set index left) (rights.set index right) := by
  induction all generalizing index with
  | nil => exact .nil
  | cons first rest ih =>
    cases index with
    | zero => exact .cons changed rest
    | succ index => exact .cons first (ih index)

end Members

/-- A buffer of the same size, with nothing in it. -/
def Buffer.blank (buffer : Buffer) : Buffer :=
  zeros buffer.size

@[simp] theorem Buffer.length_blank (buffer : Buffer) :
    buffer.blank.bytes.length = buffer.bytes.length := by
  rw [blank, length_zeros, toNat_size]

@[simp] theorem Buffer.size_blank (buffer : Buffer) : buffer.blank.size = buffer.size := by
  rw [size, length_blank, size]

/-- The same values given, but empty. -/
def Params.blank (params : Params) : Params where
  secret? := params.secret?.map fun _ => []
  seed? := params.seed?.map fun _ => []

def ByteSource.Read.blank : ByteSource.Read → ByteSource.Read
  | .into dest offset length => .into dest.blank offset length
  | .fill dest => .fill dest.blank
  | read => read

def Reply.failure? : Reply → Option Failure
  | failed failure => some failure
  | refused _ failure => some failure
  | _ => none

def Reply.flag? : Reply → Option Bool
  | flag value => some value
  | _ => none

def Reply.text? : Reply → Option String
  | text value => some value
  | _ => none

namespace Generator

/-- What can be seen of a call without the bytes of the stream. -/
structure Sight where
  succeeded : Bool
  message? : Option String := none
  flag? : Option Bool := none
  text? : Option String := none
  delivered : Nat := 0
  deriving DecidableEq

namespace Sight

def ofReply (reply : Reply) (delivered : Nat) : Sight where
  succeeded := reply.succeeded
  message? := reply.failure?.map Failure.message
  flag? := reply.flag?
  text? := reply.text?
  delivered := delivered

def ofEvent (event : Event Op) : Sight :=
  ofReply event.reply event.delivered.length

def accepted (delivered : Nat) : Sight where
  succeeded := true
  delivered := delivered

def refused (failure : Failure) : Sight where
  succeeded := false
  message? := some failure.message

end Sight

def Read.blank : Read → Read
  | .into dest offset length => .into dest.blank offset length
  | .fill dest => .fill dest.blank
  | .source read => .source read.blank
  | read => read

namespace Read

/-- What will be seen of a read of a stream. -/
def Form.foreseen : Form → Sight
  | .region dest offset length =>
    if offset.toNat + length.toNat ≤ dest.bytes.length then .accepted length.toNat
    else .refused (.bounds offset length dest.size)
  | form => .accepted form.size

theorem foreseen_of_fits {form : Form} (fits : form.Fits) :
    form.foreseen = .accepted form.size := by
  cases form with
  | region dest offset length => exact if_pos fits
  | _ => rfl

theorem foreseen_blank (read : Read) : read.blank.form.foreseen = read.form.foreseen := by
  rcases read with _ | _ | _ | _ | _ | _ | (_ | _ | _ | _) <;>
    simp [blank, ByteSource.Read.blank, form, Form.foreseen]

theorem sight_reply {read : Read} {bytes : Bytes} (fits : read.form.Fits)
    (exact : bytes.length = read.form.size) :
    Sight.ofEvent ⟨.read read, read.form.reply bytes⟩ = .accepted read.form.size := by
  have shown := congrArg List.length (Form.delivered_reply fits exact)
  rw [exact] at shown
  rw [Sight.ofEvent, Event.delivered_read, shown]
  cases read.form <;> rfl

theorem sight_refuse (read : Read) (failure : Failure) :
    Sight.ofEvent ⟨.read read, read.form.refuse failure⟩ = .refused failure := by
  rw [Sight.ofEvent, Event.delivered_read, Form.delivered_refuse]
  cases read.form <;> rfl

end Read

namespace Op

def blank : Op → Op
  | configure params => configure params.blank
  | reseedInto _ dest => reseedInto [] dest.blank
  | read asked => read asked.blank
  | op => op

/-- The call starts a stream, whether or not there is one. -/
def readies : Op → Bool
  | configure params => params.secret?.isSome && params.seed?.isSome
  | _ => false

/-- What will be seen of a call on this generator. -/
def foreseen (generator : Generator) : Op → Sight
  | configure params =>
    if generator.isReady || (configure params).readies then .accepted 0
    else if params.secret?.isSome then .refused .missingSeed
    else .refused .missingSecret
  | reseedInto _ dest =>
    if generator.isReady then .accepted dest.bytes.length else .refused .missingSecret
  | read asked => if generator.isReady then asked.form.foreseen else .refused .notInitialized
  | isReady => { succeeded := true, flag? := some generator.isReady }
  | describe => { succeeded := true, text? := some generator.describe }
  | sourceName => { succeeded := true, text? := some (ByteSource.name Generator) }

theorem readies_blank (op : Op) : op.blank.readies = op.readies := by
  cases op with
  | configure params =>
    simp only [blank, readies, Params.blank, Option.isSome_map]
  | _ => rfl

theorem describe_congr {generator other : Generator} (ready : generator.isReady = other.isReady) :
    generator.describe = other.describe := by
  unfold Generator.describe
  rw [ready]

/-- Nothing is foreseen from values that are blanked, or from a stream. -/
theorem foreseen_blank {generator other : Generator} (ready : generator.isReady = other.isReady)
    (op : Op) : op.blank.foreseen other = op.foreseen generator := by
  cases op with
  | configure params =>
    simp only [blank, foreseen, readies, Params.blank, Option.isSome_map, ready]
  | reseedInto seed dest => simp only [blank, foreseen, Buffer.length_blank, ready]
  | read asked => simp only [blank, foreseen, Read.foreseen_blank, ready]
  | isReady => simp only [blank, foreseen, ready]
  | describe => simp only [blank, foreseen, describe_congr ready]
  | sourceName => rfl

end Op

/-- The generator has no stream, or stands somewhere in one. -/
def Placed (generator : Generator) : Prop :=
  generator = uninitialized ∨ generator.Standing

theorem step_uninitialized (op : Op) :
    Sight.ofEvent ⟨op, (step op uninitialized).1⟩ = op.foreseen uninitialized ∧
      (step op uninitialized).2.Placed ∧
      (step op uninitialized).2.isReady = op.readies := by
  cases op with
  | configure params =>
    obtain ⟨_ | secret, _ | seed⟩ := params
    case some.some => exact ⟨rfl, .inr (standing_ofSecret secret seed), rfl⟩
    all_goals exact ⟨rfl, .inl rfl, rfl⟩
  | read read =>
    rw [step, Read.step_uninitialized]
    exact ⟨Read.sight_refuse read _, .inl rfl, rfl⟩
  | _ => exact ⟨rfl, .inl rfl, rfl⟩

namespace Standing

variable {generator : Generator}

theorem sight_step (standing : generator.Standing) (op : Op) :
    Sight.ofEvent ⟨op, (Generator.step op generator).1⟩ = op.foreseen generator := by
  obtain ⟨secret, seed, position, rfl⟩ := standing
  cases op with
  | configure params =>
    simp only [Generator.step, Reply.ofCall, on_configure_atPosition]
    rfl
  | reseedInto other dest =>
    have whole := Prf.length_streamBytes (halves secret).1 (halves secret).2 other 0
      dest.bytes.length
    simp only [Generator.step, Reply.ofWrite, on_reseedInto_atPosition]
    rw [Sight.ofEvent, Event.delivered_reseedInto other whole, whole]
    rfl
  | read read =>
    -- Whether a read has room is told by sizes alone, and then the stream has all that it asks for.
    change Sight.ofEvent ⟨.read read, (read.step _).1⟩ = read.form.foreseen
    by_cases fits : read.form.Fits
    · rw [Read.step_of_fits _ _ seed position fits, Read.foreseen_of_fits fits]
      exact Read.sight_reply fits (Prf.length_streamBytes ..)
    · obtain ⟨dest, offset, length, region⟩ := Read.Form.eq_region_of_not_fits fits
      rw [Read.step_of_not_fits region fits, Read.sight_refuse, region]
      rw [region] at fits
      exact (if_neg fits).symm
  | _ => rfl

end Standing

/-- To the onlooker the two generators are one. -/
structure Matched (generator other : Generator) : Prop where
  placed : generator.Placed
  otherPlaced : other.Placed
  ready : generator.isReady = other.isReady

namespace Placed

variable {generator : Generator}

theorem step (placed : generator.Placed) (op : Op) :
    Sight.ofEvent ⟨op, (Generator.step op generator).1⟩ = op.foreseen generator ∧
      (Generator.step op generator).2.Placed ∧
      (Generator.step op generator).2.isReady = (generator.isReady || op.readies) := by
  rcases placed with rfl | standing
  · exact step_uninitialized op
  · refine ⟨standing.sight_step op, .inr (standing.step op), ?_⟩
    rw [(standing.step op).isReady, standing.isReady, Bool.true_or]

end Placed

theorem Matched.step {generator other : Generator} (matched : Matched generator other) (op : Op) :
    Sight.ofEvent ⟨op.blank, (Generator.step op.blank other).1⟩ =
        Sight.ofEvent ⟨op, (Generator.step op generator).1⟩ ∧
      Matched (Generator.step op generator).2 (Generator.step op.blank other).2 := by
  obtain ⟨seen, placed, ready⟩ := matched.placed.step op
  obtain ⟨otherSeen, otherPlaced, otherReady⟩ := matched.otherPlaced.step op.blank
  refine ⟨?_, placed, otherPlaced, ?_⟩
  · rw [seen, otherSeen, Op.foreseen_blank matched.ready]
  · rw [ready, otherReady, Op.readies_blank, matched.ready]

/-- What can be seen of a command. -/
inductive Outcome where
  | made (index : Nat)
  | absent
  | called (sight : Sight)
  deriving DecidableEq

namespace Command

def blank : Command → Command
  | .ofSecret _ _ => .ofSecret [] []
  | .call index op => .call index op.blank
  | command => command

def outcome (command : Command) : Family.Answer → Outcome
  | .index index => .made index
  | .absent => .absent
  | .reply reply =>
    match command with
    | .call _ op => .called (.ofEvent ⟨op, reply⟩)
    | _ => .called (.ofReply reply 0)

end Command

structure Observation where
  outcome : Outcome
  /-- For every generator, whether it is ready and how it is described. -/
  members : List (Bool × String)
  deriving DecidableEq

def overview (family : Family Generator) : List (Bool × String) :=
  family.map fun generator => (generator.isReady, generator.describe)

/-- What is observed after each command. -/
def observations : List Command → Family Generator → List Observation
  | [], _ => []
  | command :: commands, family =>
    let (answer, family) := command.step family
    ⟨command.outcome answer, overview family⟩ :: observations commands family

theorem observations_cons (command : Command) (commands : List Command)
    (family : Family Generator) :
    observations (command :: commands) family =
      ⟨command.outcome (command.step family).1, overview (command.step family).2⟩ ::
        observations commands (command.step family).2 := rfl

section Alike

variable {family others : Family Generator}

theorem overview_eq (alike : List.Forall₂ Matched family others) :
    overview others = overview family := by
  induction alike with
  | nil => rfl
  | cons matched _ ih =>
    simp only [overview, List.map_cons] at ih ⊢
    rw [ih, matched.ready, Op.describe_congr matched.ready]

theorem add_alike (alike : List.Forall₂ Matched family others) {generator other : Generator}
    (matched : Matched generator other) :
    Family.Answer.index others.length = .index family.length ∧
      List.Forall₂ Matched (family ++ [generator]) (others ++ [other]) :=
  ⟨congrArg _ alike.length_eq.symm, List.rel_append alike (.cons matched .nil)⟩

/-- A command and the same with its values blanked look alike, and so do the families left. -/
theorem step_blank (alike : List.Forall₂ Matched family others) (command : Command) :
    command.blank.outcome (command.blank.step others).1 = command.outcome (command.step family).1 ∧
      List.Forall₂ Matched (command.step family).2 (command.blank.step others).2 := by
  cases command with
  | new =>
    obtain ⟨answer, left⟩ := add_alike alike ⟨.inl rfl, .inl rfl, rfl⟩
    exact ⟨congrArg _ answer, left⟩
  | ofSecret secret seed =>
    have matched : Matched (ready (.ofSecret secret seed)) (ready (.ofSecret [] [])) :=
      ⟨.inr (standing_ofSecret secret seed), .inr (standing_ofSecret [] []), rfl⟩
    obtain ⟨answer, left⟩ := add_alike alike matched
    exact ⟨congrArg _ answer, left⟩
  | copy index =>
    rcases getElem?_of_forall₂ alike index with
      ⟨none, otherNone⟩ | ⟨generator, other, found, otherFound, matched⟩
    · simp only [Command.blank, Command.step, Family.step, none, otherNone]
      exact ⟨trivial, alike⟩
    · obtain ⟨answer, left⟩ := add_alike alike matched
      simp only [Command.blank, Command.step, Family.step, found, otherFound, Copyable.copy_eq]
      exact ⟨congrArg _ answer, left⟩
  | call index op =>
    rcases getElem?_of_forall₂ alike index with
      ⟨none, otherNone⟩ | ⟨generator, other, found, otherFound, matched⟩
    · simp only [Command.blank, Command.step, Family.step, none, otherNone]
      exact ⟨rfl, alike⟩
    · obtain ⟨seen, left⟩ := matched.step op
      simp only [Command.blank, Command.step, Family.step, found, otherFound]
      exact ⟨congrArg Outcome.called seen, forall₂_set alike left index⟩

/-- A script and the same with its values blanked are observed alike. -/
theorem observations_blank (commands : List Command)
    (alike : List.Forall₂ Matched family others) :
    observations (commands.map Command.blank) others = observations commands family := by
  induction commands generalizing family others with
  | nil => rfl
  | cons command commands ih =>
    obtain ⟨outcome, left⟩ := step_blank alike command
    rw [List.map_cons, observations_cons, observations_cons, outcome, overview_eq left, ih left]

end Alike

end Generator

/-- An onlooker learns nothing of secrets and seeds. Two scripts that give values in the same places
and buffers of the same sizes are observed alike, step by step. Parameters show no more than which
values they give and how long each is, and a code shows its hash and whether it has a key. -/
theorem observed_alike :
    (∀ commands others : List Generator.Command,
      commands.map Generator.Command.blank = others.map Generator.Command.blank →
        Generator.observations commands [] = Generator.observations others []) ∧
      (∀ params others : Params, params.describe = others.describe ↔
        params.secret?.map List.length = others.secret?.map List.length ∧
          params.seed?.map List.length = others.seed?.map List.length) ∧
      ∀ (hash other : Hash) (mac : Mac hash) (otherMac : Mac other),
        mac.describe = otherMac.describe ↔ hash = other ∧ mac.hasKey = otherMac.hasKey := by
  refine ⟨?_, Params.describe_eq_iff, fun _ _ => Mac.describe_eq_iff⟩
  intro commands others same
  rw [← Generator.observations_blank commands .nil, same, Generator.observations_blank others .nil]

theorem observed_alike_two_secrets :
    let script (secret seed : Bytes) (dest : Buffer) : List Generator.Command :=
      [.ofSecret secret seed, .new, .call 0 (.read (.into dest 1 2)), .copy 0,
        .call 1 (.configure (.ofSeed seed)), .call 2 (.reseedInto seed dest), .call 2 .describe,
        .call 0 (.read (.source (.into dest 1 1)))]
    let commands := script [1, 2, 3] [4] ⟨[7, 7], by decide⟩
    let others := script [] [9, 9, 9, 9, 9] ⟨[0, 1], by decide⟩
    commands.map Generator.Command.blank = others.map Generator.Command.blank ∧
      Generator.observations commands [] = Generator.observations others [] ∧
      (Params.ofBoth [1, 2, 3] [4]).describe = (Params.ofBoth [5, 5, 5] [0]).describe ∧
      (Mac.keyed (.ofKey .md5 [1])).describe = (Mac.keyed (.ofKey .md5 [2, 3])).describe := by
  intro script commands others
  have same : commands.map Generator.Command.blank = others.map Generator.Command.blank := by
    decide
  obtain ⟨alike, params, macs⟩ := observed_alike
  exact ⟨same, alike commands others same,
    (params (.ofBoth [1, 2, 3] [4]) (.ofBoth [5, 5, 5] [0])).mpr ⟨rfl, rfl⟩,
    (macs .md5 .md5 (.keyed (.ofKey .md5 [1])) (.keyed (.ofKey .md5 [2, 3]))).mpr
      ⟨rfl, show true = true from rfl⟩⟩

end TlsKeys
