import TlsKeys.Bytes
import TlsKeys.Region

/-!
Buffers: byte strings whose size fits 64 bits, so that a region of one can be
named by two sizes. Writing into a buffer keeps its size.
-/

namespace TlsKeys

structure Buffer where
  bytes : Bytes
  length_lt : bytes.length < UInt64.size
  deriving DecidableEq

namespace Buffer

def ofBytes? (bytes : Bytes) : Option Buffer :=
  if fits : bytes.length < UInt64.size then some ⟨bytes, fits⟩ else none

def size (buffer : Buffer) : UInt64 :=
  buffer.bytes.length.toUInt64

@[simp] theorem toNat_size (buffer : Buffer) : buffer.size.toNat = buffer.bytes.length := by
  rw [size, Nat.toUInt64_eq, UInt64.toNat_ofNat']
  exact Nat.mod_eq_of_lt buffer.length_lt

def zeros (size : UInt64) : Buffer :=
  ⟨List.replicate size.toNat 0, by simpa using size.toNat_lt_size⟩

@[simp] theorem length_zeros (size : UInt64) : (zeros size).bytes.length = size.toNat := by
  simp [zeros]

def whole (buffer : Buffer) : Region where
  start := 0
  stop := buffer.size

@[simp] theorem length_whole (buffer : Buffer) : buffer.whole.length = buffer.bytes.length := by
  simp [whole, Region.length]

/-- The whole of a buffer is always a region of it. -/
theorem check_whole (buffer : Buffer) :
    Region.check buffer.size 0 buffer.size = .ok buffer.whole :=
  Region.check_eq_ok_iff.mpr (by simp [whole])

def slice (buffer : Buffer) (region : Region) : Bytes :=
  (buffer.bytes.drop region.start.toNat).take region.length

def write (buffer : Buffer) (start : Nat) (source : Bytes) : Buffer :=
  ⟨Bytes.overlayAt start source buffer.bytes, by simpa using buffer.length_lt⟩

@[simp] theorem slice_whole (buffer : Buffer) : buffer.slice buffer.whole = buffer.bytes := by
  rw [slice, length_whole]
  exact List.take_length

theorem length_slice {buffer : Buffer} {offset length : UInt64} {region : Region}
    (accepted : Region.check buffer.size offset length = .ok region) :
    (buffer.slice region).length = length.toNat := by
  obtain ⟨inside, start, _⟩ := Region.check_eq_ok_iff.mp accepted
  rw [toNat_size] at inside
  rw [slice, List.length_take, List.length_drop, Region.length_of_check accepted, start]
  omega

theorem check_of_fits {buffer : Buffer} {offset length : UInt64}
    (fits : offset.toNat + length.toNat ≤ buffer.bytes.length) :
    ∃ region, Region.check buffer.size offset length = .ok region ∧ region.start = offset ∧
      region.length = length.toNat := by
  cases checked : Region.check buffer.size offset length with
  | ok region =>
    obtain ⟨_, start, _⟩ := Region.check_eq_ok_iff.mp checked
    exact ⟨region, rfl, start, Region.length_of_check checked⟩
  | error failure =>
    have outside := (Region.check_eq_error_iff.mp checked).1
    rw [toNat_size] at outside
    exact absurd fits (Nat.not_le_of_lt outside)

theorem check_of_not_fits {buffer : Buffer} {offset length : UInt64}
    (outside : ¬ offset.toNat + length.toNat ≤ buffer.bytes.length) :
    Region.check buffer.size offset length = .error (.bounds offset length buffer.size) := by
  apply Region.check_eq_error_iff.mpr
  rw [toNat_size]
  exact ⟨Nat.lt_of_not_le outside, rfl⟩

end Buffer

end TlsKeys
