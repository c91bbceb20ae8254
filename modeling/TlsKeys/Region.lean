import TlsKeys.Failure

/-!
Regions of a buffer, given by an offset and a length of 64 bits each.

The sum of the two may leave the range of 64 bits, so it is taken with care:
a region is accepted exactly when the unbounded sum is within the capacity.
-/

namespace TlsKeys

/-- The sum of two sizes, if 64 bits hold it. -/
def sumOfSizes? (left right : UInt64) : Option UInt64 :=
  if left ≤ left + right then some (left + right) else none

theorem sumOfSizes?_eq_some_iff {left right total : UInt64} :
    sumOfSizes? left right = some total ↔ left.toNat + right.toNat = total.toNat := by
  have leftBound := left.toNat_lt
  have rightBound := right.toNat_lt
  have totalBound := total.toNat_lt
  have wrapped := UInt64.toNat_add left right
  simp only [sumOfSizes?, UInt64.le_iff_toNat_le]
  split
  · rw [Option.some_inj, ← UInt64.toNat_inj]
    omega
  · simp only [reduceCtorEq, false_iff]
    omega

theorem sumOfSizes?_eq_none_iff {left right : UInt64} :
    sumOfSizes? left right = none ↔ UInt64.size ≤ left.toNat + right.toNat := by
  have leftBound := left.toNat_lt_size
  have rightBound := right.toNat_lt_size
  have wrapped := UInt64.toNat_add left right
  simp only [sumOfSizes?, UInt64.le_iff_toNat_le, UInt64.size] at *
  split <;> simp <;> omega

/-- The positions from `start` up to, but not with, `stop`. -/
structure Region where
  start : UInt64
  stop : UInt64
  deriving DecidableEq, Repr

namespace Region

def length (region : Region) : Nat :=
  region.stop.toNat - region.start.toNat

def check (capacity offset length : UInt64) : Except Failure Region :=
  match sumOfSizes? offset length with
  | some stop =>
    if stop ≤ capacity then .ok ⟨offset, stop⟩ else .error (.bounds offset length capacity)
  | none => .error (.bounds offset length capacity)

theorem check_eq_ok_iff {capacity offset length : UInt64} {region : Region} :
    check capacity offset length = .ok region ↔
      offset.toNat + length.toNat ≤ capacity.toNat ∧
        region.start = offset ∧ region.stop.toNat = offset.toNat + length.toNat := by
  have capacityBound := capacity.toNat_lt_size
  obtain ⟨start, stop⟩ := region
  rw [check]
  cases sum : sumOfSizes? offset length with
  | none =>
    have := sumOfSizes?_eq_none_iff.mp sum
    simp only [reduceCtorEq, false_iff]
    omega
  | some total =>
    have := sumOfSizes?_eq_some_iff.mp sum
    simp only [UInt64.le_iff_toNat_le]
    split
    · simp only [Except.ok.injEq, Region.mk.injEq, ← UInt64.toNat_inj]
      omega
    · simp only [reduceCtorEq, false_iff]
      omega

theorem length_of_check {capacity offset length : UInt64} {region : Region}
    (accepted : check capacity offset length = .ok region) : region.length = length.toNat := by
  obtain ⟨_, start, stop⟩ := check_eq_ok_iff.mp accepted
  rw [Region.length, start, stop, Nat.add_sub_cancel_left]

theorem check_eq_error_iff {capacity offset length : UInt64} {failure : Failure} :
    check capacity offset length = .error failure ↔
      capacity.toNat < offset.toNat + length.toNat ∧
        failure = .bounds offset length capacity := by
  have capacityBound := capacity.toNat_lt_size
  rw [check]
  cases sum : sumOfSizes? offset length with
  | none =>
    have := sumOfSizes?_eq_none_iff.mp sum
    simp only [Except.error.injEq, eq_comm (a := failure)]
    exact ⟨fun same => ⟨by omega, same⟩, fun both => both.2⟩
  | some total =>
    have := sumOfSizes?_eq_some_iff.mp sum
    simp only [UInt64.le_iff_toNat_le]
    split
    · simp only [reduceCtorEq, false_iff]
      omega
    · simp only [Except.error.injEq, eq_comm (a := failure)]
      exact ⟨fun same => ⟨by omega, same⟩, fun both => both.2⟩

end Region

end TlsKeys
