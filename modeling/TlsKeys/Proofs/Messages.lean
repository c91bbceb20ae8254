import Mathlib.Order.Interval.Finset.Nat
import TlsKeys.Region

/-!
What the message of a failure tells.

The four headings begin with four different letters, so a message shows the kind
of its failure, and all that follows the heading is the cause, whatever text
that is. The message about a region that does not lie within its buffer has
three numbers in it and only words without digits around them, so that the
offset, the length and the capacity can be read off it again
(`numbers_message_bounds`).
-/

namespace TlsKeys

section Numbers

/-- The numbers in a text, one for each longest run of digits. While a run is being read,
`number?` is what its digits so far make. -/
def numbersFrom : Option Nat → List Char → List Nat
  | number?, [] => number?.toList
  | number?, c :: text =>
    if c.isDigit then numbersFrom (some (10 * number?.getD 0 + (c.toNat - '0'.toNat))) text
    else number?.toList ++ numbersFrom none text

def numbers (text : String) : List Nat :=
  numbersFrom none text.toList

variable {words digits : List Char}

/-- Words end the number before them and have none in them. -/
theorem numbersFrom_words (number? : Option Nat) (nonempty : words ≠ [])
    (noDigit : words.any Char.isDigit = false) (text : List Char) :
    numbersFrom number? (words ++ text) = number?.toList ++ numbersFrom none text := by
  induction words generalizing number? with
  | nil => exact absurd rfl nonempty
  | cons c words ih =>
    rw [List.any_cons, Bool.or_eq_false_iff] at noDigit
    obtain ⟨here, later⟩ := noDigit
    rw [List.cons_append, numbersFrom, here, if_neg Bool.false_ne_true]
    cases words with
    | nil => rfl
    | cons next words =>
      rw [ih none (List.cons_ne_nil next words) later, Option.toList_none, List.nil_append]

theorem numbersFrom_digits (number : Nat) (allDigits : ∀ c ∈ digits, c.isDigit)
    (text : List Char) :
    numbersFrom (some number) (digits ++ text) =
      numbersFrom (some (Nat.ofDigitChars 10 digits number)) text := by
  induction digits generalizing number with
  | nil => rfl
  | cons c digits ih =>
    rw [List.forall_mem_cons] at allDigits
    obtain ⟨here, later⟩ := allDigits
    rw [List.cons_append, numbersFrom, if_pos here, ih _ later, Nat.ofDigitChars_cons,
      Option.getD_some]

theorem numbersFrom_toDigits (number : Nat) (text : List Char) :
    numbersFrom none (Nat.toDigits 10 number ++ text) = numbersFrom (some number) text := by
  have allDigits : ∀ c ∈ Nat.toDigits 10 number, c.isDigit := fun c present =>
    Nat.isDigit_of_mem_toDigits (by decide) (by decide) present
  -- A run starts at its first digit as if a zero had come before it.
  have fromZero : numbersFrom none (Nat.toDigits 10 number ++ text) =
      numbersFrom (some 0) (Nat.toDigits 10 number ++ text) := by
    cases run : Nat.toDigits 10 number with
    | nil => exact absurd run Nat.toDigits_ne_nil
    | cons c digits =>
      rw [run] at allDigits
      have first := allDigits c List.mem_cons_self
      rw [List.cons_append, numbersFrom, numbersFrom, if_pos first, if_pos first]
      rfl
  rw [fromZero, numbersFrom_digits 0 allDigits, Nat.ofDigitChars_ten_toDigits]

end Numbers

namespace Failure

namespace Kind

/-- The first letter tells the headings apart. -/
theorem eq_of_head?_heading_eq {kind other : Kind}
    (heads : kind.heading.toList.head? = other.heading.toList.head?) : kind = other := by
  cases kind <;> cases other <;> revert heads <;> decide

theorem head?_heading_append (kind : Kind) (text : String) :
    (kind.heading ++ text).toList.head? = kind.heading.toList.head? := by
  rw [String.toList_append]
  cases kind <;> rfl

/-- A heading and a cause can be told from the text that they make together, even if the cause
looks like such a text itself. -/
theorem heading_append_inj {kind other : Kind} {cause another : String} :
    kind.heading ++ " caused by: " ++ cause = other.heading ++ " caused by: " ++ another ↔
      kind = other ∧ cause = another := by
  constructor
  · intro same
    have kinds : kind = other := by
      apply eq_of_head?_heading_eq
      have heads := congrArg (·.toList.head?) same
      simp only [String.append_assoc, head?_heading_append] at heads
      exact heads
    subst kinds
    rw [String.append_right_inj] at same
    exact ⟨rfl, same⟩
  · rintro ⟨rfl, rfl⟩
    rfl

end Kind

theorem message_eq_iff (failure other : Failure) :
    failure.message = other.message ↔
      failure.kind = other.kind ∧ failure.cause = other.cause := by
  unfold message
  exact Kind.heading_append_inj

/-- The message about a region outside its buffer has just the three numbers in it. -/
theorem numbers_message_bounds (offset length capacity : UInt64) :
    numbers (bounds offset length capacity).message =
      [offset.toNat, length.toNat, capacity.toNat] := by
  unfold numbers message cause kind Kind.heading
  simp only [String.toList_append, Nat.toString_eq_repr, Nat.toList_repr, List.append_assoc]
  -- The heading, what joins it to the cause, and the first words of the cause have no number before
  -- them; the words after each number end it.
  rw [numbersFrom_words none (by decide) (by decide),
    numbersFrom_words none (by decide) (by decide),
    numbersFrom_words none (by decide) (by decide), numbersFrom_toDigits,
    numbersFrom_words (some offset.toNat) (by decide) (by decide), numbersFrom_toDigits,
    numbersFrom_words (some length.toNat) (by decide) (by decide), numbersFrom_toDigits]
  rfl

theorem message_bounds_inj {offset length capacity offset' length' capacity' : UInt64} :
    (bounds offset length capacity).message = (bounds offset' length' capacity').message ↔
      offset = offset' ∧ length = length' ∧ capacity = capacity' := by
  constructor
  · intro same
    have read := congrArg numbers same
    simp only [numbers_message_bounds, List.cons.injEq, UInt64.toNat_inj, and_true] at read
    exact read
  · rintro ⟨rfl, rfl, rfl⟩
    rfl

end Failure

namespace Region

def positions (region : Region) : Finset Nat :=
  Finset.Ico region.start.toNat region.stop.toNat

variable {capacity offset length : UInt64} {region : Region}

theorem card_positions (accepted : check capacity offset length = .ok region) :
    region.positions.card = length.toNat := by
  rw [positions, Nat.card_Ico]
  exact length_of_check accepted

theorem lt_of_mem_positions (accepted : check capacity offset length = .ok region)
    {position : Nat} (present : position ∈ region.positions) : position < capacity.toNat := by
  obtain ⟨within, _, stop⟩ := check_eq_ok_iff.mp accepted
  rw [positions, Finset.mem_Ico, stop] at present
  exact Nat.lt_of_lt_of_le present.2 within

theorem exists_check_eq_ok_iff :
    (∃ region, check capacity offset length = .ok region) ↔
      offset.toNat + length.toNat ≤ capacity.toNat := by
  constructor
  · rintro ⟨region, accepted⟩
    exact (check_eq_ok_iff.mp accepted).1
  · intro within
    cases outcome : check capacity offset length with
    | ok region => exact ⟨region, rfl⟩
    | error failure =>
      have outside := (check_eq_error_iff.mp outcome).1
      exact absurd within (Nat.not_le_of_lt outside)

/-- A region is accepted exactly if it lies within the buffer, and is then the one asked for. A
refusal shows the three numbers that were asked about and no others, and in general no message can
be read as that of another kind of failure or of another cause. -/
theorem accepted_iff_within (capacity offset length : UInt64) :
    ((∃ region, check capacity offset length = .ok region) ↔
        offset.toNat + length.toNat ≤ capacity.toNat) ∧
      (∀ region, check capacity offset length = .ok region →
        region.start = offset ∧ region.stop.toNat = offset.toNat + length.toNat ∧
          region.positions.card = length.toNat ∧
          ∀ position ∈ region.positions, position < capacity.toNat) ∧
      (capacity.toNat < offset.toNat + length.toNat →
        ∃ failure, check capacity offset length = .error failure ∧ failure.kind = .bounds ∧
          numbers failure.message = [offset.toNat, length.toNat, capacity.toNat]) ∧
      (∀ capacity' offset' length' failure another,
        check capacity offset length = .error failure →
        check capacity' offset' length' = .error another →
          (failure.message = another.message ↔
            offset = offset' ∧ length = length' ∧ capacity = capacity')) ∧
      (∀ failure other : Failure, failure.message = other.message ↔
        failure.kind = other.kind ∧ failure.cause = other.cause) ∧
      (∀ (kind other : Failure.Kind) (cause another : String),
        kind.heading ++ " caused by: " ++ cause = other.heading ++ " caused by: " ++ another ↔
          kind = other ∧ cause = another) := by
  refine ⟨exists_check_eq_ok_iff, ?_, ?_, ?_, Failure.message_eq_iff, ?_⟩
  · intro region accepted
    obtain ⟨_, start, stop⟩ := check_eq_ok_iff.mp accepted
    exact ⟨start, stop, card_positions accepted, fun position => lt_of_mem_positions accepted⟩
  · intro outside
    have refused := check_eq_error_iff.mpr ⟨outside, rfl⟩
    exact ⟨_, refused, rfl, Failure.numbers_message_bounds offset length capacity⟩
  · intro capacity' offset' length' failure another refused refusedToo
    obtain ⟨_, rfl⟩ := check_eq_error_iff.mp refused
    obtain ⟨_, rfl⟩ := check_eq_error_iff.mp refusedToo
    exact Failure.message_bounds_inj
  · intro kind other cause another
    exact Failure.Kind.heading_append_inj

/-- The digits of an offset and a length do not run together, a sum that leaves 64 bits is refused
with the numbers as they were given, and a cause may pretend to be a whole message. -/
theorem accepted_iff_within_sum_wraps :
    (∃ region, check 10 2 8 = .ok region ∧ region.positions.card = 8) ∧
      (∃ failure, check 10 0xffffffffffffffff 2 = .error failure ∧ failure.kind = .bounds ∧
        numbers failure.message = [18446744073709551615, 2, 10]) ∧
      (Failure.bounds 1 12 0).message ≠ (Failure.bounds 11 2 0).message ∧
      (Failure.config "state error caused by: MAC used before init").message ≠
        (Failure.state "MAC used before init").message := by
  obtain ⟨accepted, asAsked, _⟩ := accepted_iff_within 10 2 8
  obtain ⟨_, _, refused, _⟩ := accepted_iff_within 10 0xffffffffffffffff 2
  obtain ⟨_, _, _, told, kinds, _⟩ := accepted_iff_within 0 1 12
  refine ⟨?_, refused (by decide), ?_, ?_⟩
  · obtain ⟨region, found⟩ := accepted.mpr (by decide)
    exact ⟨region, found, (asAsked region found).2.2.1⟩
  · rw [ne_eq, told 0 11 2 _ _ rfl rfl]
    decide
  · rw [ne_eq, kinds]
    decide

end Region

end TlsKeys
