/-!
Byte strings: exclusive or, cutting into pieces, overwriting, and the two
orders in which a number is written as bytes.

Every operation says what it does to the length, so that later modules never
count bytes by hand.
-/

namespace TlsKeys

abbrev Bytes := List UInt8

namespace Bytes

/-- Byte strings of exactly `length` bytes. -/
abbrev OfLength (length : Nat) : Type :=
  { bytes : Bytes // bytes.length = length }

def ofLength? (length : Nat) (bytes : Bytes) : Option (OfLength length) :=
  if exact : bytes.length = length then some ⟨bytes, exact⟩ else none

/-- Text of characters below 256, one byte per character. -/
def ofAscii (text : String) : Bytes :=
  text.toList.map fun c => c.toNat.toUInt8

/-- Bytewise exclusive or, as long as the shorter operand. -/
def xor (left right : Bytes) : Bytes :=
  List.zipWith (· ^^^ ·) left right

theorem zipWith_append_right (combine : UInt8 → UInt8 → UInt8) (bytes left right : Bytes) :
    List.zipWith combine bytes (left ++ right) =
      List.zipWith combine (bytes.take left.length) left ++
        List.zipWith combine (bytes.drop left.length) right := by
  induction left generalizing bytes with
  | nil => simp
  | cons byte left ih => cases bytes <;> simp [ih]

/-- The first `count` pieces of `size` bytes each. -/
def cut (size : Nat) : Nat → Bytes → List Bytes
  | 0, _ => []
  | count + 1, bytes => bytes.take size :: cut size count (bytes.drop size)

/-- The number of pieces of `size` bytes that hold `length` bytes, the last one perhaps in part. -/
def pieceCount (size length : Nat) : Nat :=
  (length + (size - 1)) / size

def pieces (size : Nat) (bytes : Bytes) : List Bytes :=
  cut size (pieceCount size bytes.length) bytes

@[simp] theorem length_cut (size count : Nat) (bytes : Bytes) :
    (cut size count bytes).length = count := by
  induction count generalizing bytes with
  | zero => rfl
  | succ count ih => simp [cut, ih]

theorem cut_add (size first second : Nat) (bytes : Bytes) :
    cut size (first + second) bytes =
      cut size first bytes ++ cut size second (bytes.drop (size * first)) := by
  induction first generalizing bytes with
  | zero => simp [cut]
  | succ first ih =>
    rw [Nat.succ_add]
    simp only [cut, ih, List.cons_append, List.drop_drop]
    rw [Nat.mul_succ, Nat.add_comm size]

theorem cut_append_left (size count : Nat) (left right : Bytes)
    (enough : size * count ≤ left.length) :
    cut size count (left ++ right) = cut size count left := by
  induction count generalizing left with
  | zero => rfl
  | succ count ih =>
    have whole : size ≤ left.length := by
      rw [Nat.mul_succ] at enough
      omega
    rw [cut, cut, List.take_append_of_le_length whole, List.drop_append_of_le_length whole,
      ih (left.drop size) (by rw [Nat.mul_succ] at enough; simp; omega)]

theorem flatten_cut (size count : Nat) (bytes : Bytes) :
    (cut size count bytes).flatten = bytes.take (size * count) := by
  induction count generalizing bytes with
  | zero => simp [cut]
  | succ count ih =>
    rw [cut, List.flatten_cons, ih, Nat.mul_succ, Nat.add_comm, List.take_add]

theorem le_mul_pieceCount {size : Nat} (positive : 0 < size) (length : Nat) :
    length ≤ size * pieceCount size length := by
  have division := Nat.div_add_mod (length + (size - 1)) size
  have remainder := Nat.mod_lt (length + (size - 1)) positive
  rw [pieceCount]
  omega

theorem flatten_pieces {size : Nat} (positive : 0 < size) (bytes : Bytes) :
    (pieces size bytes).flatten = bytes := by
  rw [pieces, flatten_cut]
  exact List.take_of_length_le (le_mul_pieceCount positive bytes.length)

theorem pieceCount_mul_add {size : Nat} (positive : 0 < size) (count length : Nat) :
    pieceCount size (size * count + length) = count + pieceCount size length := by
  rw [pieceCount, Nat.add_assoc, Nat.mul_add_div positive, pieceCount]

theorem pieceCount_mul {size : Nat} (positive : 0 < size) (count : Nat) :
    pieceCount size (size * count) = count := by
  rw [pieceCount, Nat.mul_add_div positive, Nat.div_eq_of_lt (by omega), Nat.add_zero]

/-- Whole pieces are cut off as if nothing came after them. -/
theorem pieces_append {size : Nat} (positive : 0 < size) {left : Bytes}
    (whole : size ∣ left.length) (right : Bytes) :
    pieces size (left ++ right) = pieces size left ++ pieces size right := by
  obtain ⟨count, exact⟩ := whole
  rw [pieces, pieces, pieces, List.length_append, exact, pieceCount_mul_add positive,
    pieceCount_mul positive, cut_add, cut_append_left _ _ _ _ (Nat.le_of_eq exact.symm), ← exact,
    List.drop_left]

theorem length_le_of_mem_cut {size count : Nat} {bytes piece : Bytes}
    (present : piece ∈ cut size count bytes) : piece.length ≤ size := by
  induction count generalizing bytes with
  | zero => cases present
  | succ count ih =>
    rcases List.mem_cons.mp present with rfl | later
    · exact List.length_take_le size bytes
    · exact ih later

theorem length_le_of_mem_pieces {size : Nat} {bytes piece : Bytes}
    (present : piece ∈ pieces size bytes) : piece.length ≤ size :=
  length_le_of_mem_cut present

/-- `source` laid over the front of `target`; the length is that of `target`. -/
def overlay : Bytes → Bytes → Bytes
  | [], target => target
  | _ :: _, [] => []
  | byte :: source, _ :: target => byte :: overlay source target

def overlayAt (start : Nat) (source target : Bytes) : Bytes :=
  target.take start ++ overlay source (target.drop start)

@[simp] theorem length_overlay (source target : Bytes) :
    (overlay source target).length = target.length := by
  induction source generalizing target with
  | nil => rfl
  | cons byte source ih => cases target <;> simp [overlay, ih]

@[simp] theorem length_overlayAt (start : Nat) (source target : Bytes) :
    (overlayAt start source target).length = target.length := by
  simp [overlayAt]
  omega

theorem overlay_eq_append_drop {source target : Bytes} (fits : source.length ≤ target.length) :
    overlay source target = source ++ target.drop source.length := by
  induction source generalizing target with
  | nil => rfl
  | cons byte source ih =>
    cases target with
    | nil => simp at fits
    | cons head target => simp [overlay, ih (Nat.le_of_succ_le_succ fits)]

theorem overlayAt_eq_append {start : Nat} {source target : Bytes}
    (fits : start + source.length ≤ target.length) :
    overlayAt start source target =
      target.take start ++ source ++ target.drop (start + source.length) := by
  rw [overlayAt, overlay_eq_append_drop (by simp; omega), List.drop_drop, List.append_assoc]

/-- Laid over a piece of its own length, a string takes the place of the piece. -/
theorem overlayAt_append {source piece : Bytes} (same : source.length = piece.length)
    (before after : Bytes) :
    overlayAt before.length source (before ++ (piece ++ after)) = before ++ (source ++ after) := by
  have fits : source.length ≤ (piece ++ after).length := by
    rw [List.length_append, same]
    exact Nat.le_add_right _ _
  rw [overlayAt, List.take_left, List.drop_left, overlay_eq_append_drop fits, same, List.drop_left]

/-- The number whose base-256 digits are `bytes`, the least significant first. -/
def toNatLittle : Bytes → Nat
  | [] => 0
  | byte :: bytes => byte.toNat + 256 * toNatLittle bytes

def ofNatLittle : Nat → Nat → Bytes
  | 0, _ => []
  | count + 1, number => number.toUInt8 :: ofNatLittle count (number / 256)

def toNatBig (bytes : Bytes) : Nat :=
  toNatLittle bytes.reverse

def ofNatBig (count number : Nat) : Bytes :=
  (ofNatLittle count number).reverse

@[simp] theorem length_ofNatLittle (count number : Nat) :
    (ofNatLittle count number).length = count := by
  induction count generalizing number with
  | zero => rfl
  | succ count ih => simp [ofNatLittle, ih]

@[simp] theorem length_ofNatBig (count number : Nat) : (ofNatBig count number).length = count := by
  simp [ofNatBig]

theorem toNatLittle_lt (bytes : Bytes) : toNatLittle bytes < Nat.pow 256 bytes.length := by
  induction bytes with
  | nil => exact Nat.zero_lt_one
  | cons byte bytes ih =>
    have := byte.toNat_lt
    change byte.toNat + 256 * toNatLittle bytes < Nat.pow 256 bytes.length * 256
    omega

theorem ofNatLittle_toNatLittle (bytes : Bytes) :
    ofNatLittle bytes.length (toNatLittle bytes) = bytes := by
  induction bytes with
  | nil => rfl
  | cons byte bytes ih =>
    have bound := byte.toNat_lt
    have head : (byte.toNat + 256 * toNatLittle bytes).toUInt8 = byte := by
      apply UInt8.toNat_inj.mp
      rw [Nat.toUInt8_eq, UInt8.toNat_ofNat']
      omega
    have tail : (byte.toNat + 256 * toNatLittle bytes) / 256 = toNatLittle bytes := by omega
    rw [List.length_cons, toNatLittle, ofNatLittle, head, tail, ih]

end Bytes

end TlsKeys
