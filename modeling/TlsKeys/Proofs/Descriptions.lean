import Mathlib.Data.List.Basic
import Std.Data.String.ToNat
import TlsKeys.Generator.Params
import TlsKeys.Mac

/-!
What the descriptions show.

The parts of a description have no comma in them, and a comma comes between
them, so the text can be taken apart again (`inBraces_inj`). The description of
parameters shows which values there are and how long each is, that of a code
shows its hash and whether it has a key, and neither shows more.
-/

namespace TlsKeys

namespace Text

/-- What stands before the first comma, and what stands after it, can be told apart. -/
theorem append_comma_inj {first other rest more : List Char} (clear : ',' ∉ first)
    (otherClear : ',' ∉ other) :
    first ++ ',' :: rest = other ++ ',' :: more ↔ first = other ∧ rest = more := by
  induction first generalizing other with
  | nil =>
    cases other with
    | nil => simp
    | cons char other =>
      have noComma : ',' ≠ char := List.ne_of_not_mem_cons otherClear
      simp [noComma]
  | cons char first ih =>
    have noComma : ',' ≠ char := List.ne_of_not_mem_cons clear
    cases other with
    | nil => simp [noComma.symm]
    | cons otherChar other =>
      have later := ih (List.not_mem_of_not_mem_cons clear)
        (List.not_mem_of_not_mem_cons otherClear)
      simp only [List.cons_append, List.cons.injEq, later, and_assoc]

theorem toList_separated (part next : String) (parts : List String) :
    (separated (part :: next :: parts)).toList =
      part.toList ++ ',' :: ' ' :: (separated (next :: parts)).toList := by
  rw [separated, String.toList_append, String.toList_append, List.append_assoc]
  rfl

theorem separated_inj {parts others : List String} (count : parts.length = others.length)
    (clear : ∀ part ∈ parts, ',' ∉ part.toList) (otherClear : ∀ part ∈ others, ',' ∉ part.toList) :
    separated parts = separated others ↔ parts = others := by
  induction parts generalizing others with
  | nil =>
    obtain rfl := List.eq_nil_of_length_eq_zero count.symm
    simp
  | cons part parts ih =>
    obtain ⟨other, others, rfl⟩ := List.exists_cons_of_length_eq_add_one count.symm
    have countLater : parts.length = others.length := Nat.succ.inj count
    obtain ⟨clearHere, clearLater⟩ := List.forall_mem_cons.mp clear
    obtain ⟨otherHere, otherLater⟩ := List.forall_mem_cons.mp otherClear
    have later := ih countLater clearLater otherLater
    cases parts with
    | nil =>
      obtain rfl := List.eq_nil_of_length_eq_zero countLater.symm
      simp only [separated, List.cons.injEq, and_true]
    | cons next parts =>
      obtain ⟨otherNext, others, rfl⟩ := List.exists_cons_of_length_eq_add_one countLater.symm
      rw [← String.toList_inj, toList_separated, toList_separated,
        append_comma_inj clearHere otherHere, String.toList_inj, List.cons.injEq ' ',
        String.toList_inj, later]
      simp only [true_and, List.cons.injEq]

/-- Objects of one kind are described alike exactly if all the parts shown are the same. -/
theorem inBraces_inj {name : String} {parts others : List String}
    (count : parts.length = others.length) (clear : ∀ part ∈ parts, ',' ∉ part.toList)
    (otherClear : ∀ part ∈ others, ',' ∉ part.toList) :
    inBraces name parts = inBraces name others ↔ parts = others := by
  rw [inBraces, inBraces, String.append_left_inj, String.append_right_inj,
    separated_inj count clear otherClear]

theorem field_inj {name value other : String} :
    field name value = field name other ↔ value = other :=
  String.append_right_inj _

theorem comma_notMem_field {name value : String} (clear : ',' ∉ name.toList)
    (valueClear : ',' ∉ value.toList) : ',' ∉ (field name value).toList := by
  rw [field, String.toList_append, String.toList_append]
  intro present
  rcases List.mem_append.mp present with opening | inValue
  · rcases List.mem_append.mp opening with inName | colon
    · exact clear inName
    · exact absurd colon (by decide)
  · exact valueClear inValue

end Text

theorem comma_notMem_toString (number : Nat) : ',' ∉ (toString number).toList := by
  intro present
  rw [Nat.toString_eq_repr, Nat.toList_repr] at present
  exact absurd (Nat.isDigit_of_mem_toDigits (by decide) (by decide) present) (by decide)

namespace Params

theorem comma_notMem_describeLength (value? : Option Bytes) :
    ',' ∉ (describeLength value?).toList := by
  cases value? with
  | none => decide
  | some value =>
    intro present
    rw [describeLength, String.toList_append, String.toList_append] at present
    rcases List.mem_append.mp present with opening | closing
    · rcases List.mem_append.mp opening with word | digits
      · exact absurd word (by decide)
      · exact comma_notMem_toString value.length digits
    · exact absurd closing (by decide)

theorem describeLength_none_ne (value : Bytes) :
    describeLength none ≠ describeLength (some value) := by
  intro same
  have heads := congrArg (·.toList.head?) same
  simp [describeLength] at heads

theorem describeLength_eq_iff (value? other? : Option Bytes) :
    describeLength value? = describeLength other? ↔
      value?.map List.length = other?.map List.length := by
  cases value? with
  | none =>
    cases other? with
    | none => exact ⟨fun _ => rfl, fun _ => rfl⟩
    | some other => exact ⟨fun same => absurd same (describeLength_none_ne other), nofun⟩
  | some value =>
    cases other? with
    | none => exact ⟨fun same => absurd same.symm (describeLength_none_ne value), nofun⟩
    | some other =>
      rw [describeLength, describeLength, String.append_left_inj, String.append_right_inj,
        Nat.toString_eq_repr, Nat.toString_eq_repr, Nat.repr_inj, Option.map_some, Option.map_some,
        Option.some_inj]

theorem comma_notMem_parts (params : Params) :
    ∀ part ∈ [Text.field "secret_len" (describeLength params.secret?),
      Text.field "seed_len" (describeLength params.seed?)], ',' ∉ part.toList := by
  rintro part (_ | ⟨_, _ | ⟨_, ⟨⟩⟩⟩)
  · exact Text.comma_notMem_field (by decide) (comma_notMem_describeLength params.secret?)
  · exact Text.comma_notMem_field (by decide) (comma_notMem_describeLength params.seed?)

/-- Parameters are described alike exactly if they give the same values, of the same lengths. -/
theorem describe_eq_iff (params others : Params) :
    params.describe = others.describe ↔
      params.secret?.map List.length = others.secret?.map List.length ∧
        params.seed?.map List.length = others.seed?.map List.length := by
  rw [← describeLength_eq_iff, ← describeLength_eq_iff, describe, describe,
    Text.inBraces_inj (by rfl) (comma_notMem_parts params) (comma_notMem_parts others)]
  simp only [List.cons.injEq, Text.field_inj, and_true]

end Params

namespace Mac

theorem mixedCaseName_inj {hash other : Hash} :
    hash.mixedCaseName = other.mixedCaseName ↔ hash = other := by
  cases hash <;> cases other <;> decide

theorem flag_inj {flag other : Bool} : toString flag = toString other ↔ flag = other := by
  cases flag <;> cases other <;> decide

theorem comma_notMem_parts {hash : Hash} (mac : Mac hash) :
    ∀ part ∈ [Text.field "algorithm" hash.mixedCaseName, Text.field "keyed" (toString mac.hasKey),
      Text.andMore], ',' ∉ part.toList := by
  rintro part (_ | ⟨_, _ | ⟨_, _ | ⟨_, ⟨⟩⟩⟩⟩)
  · exact Text.comma_notMem_field (by decide) (by cases hash <;> decide)
  · exact Text.comma_notMem_field (by decide) (by cases mac.hasKey <;> decide)
  · decide

/-- Codes are described alike exactly if they are over one hash and both have a key or both have
none, whatever the keys and the messages in progress. -/
theorem describe_eq_iff {hash other : Hash} (mac : Mac hash) (otherMac : Mac other) :
    mac.describe = otherMac.describe ↔ hash = other ∧ mac.hasKey = otherMac.hasKey := by
  rw [← mixedCaseName_inj, ← flag_inj, describe, describe,
    Text.inBraces_inj (by rfl) (comma_notMem_parts mac) (comma_notMem_parts otherMac)]
  simp only [List.cons.injEq, Text.field_inj, and_true]

end Mac

end TlsKeys
