import TlsKeys.Hash.Basic

/-!
Which texts name a hash.

A name may be written in small and in capital letters. The letters are those of
ASCII: no other character stands for one of them, and nothing around a name is
passed over. Texts may as well be compared by the bytes of their UTF-8 form
(`equalButForCase_iff`), as all bytes of a character beyond ASCII are beyond
ASCII too.
-/

namespace TlsKeys.Hash

/-- The letters A to Z become a to z, which come 32 places later. -/
def smallLetter (c : Char) : Char :=
  if 'A' ≤ c ∧ c ≤ 'Z' then Char.ofNat (c.toNat + 32) else c

def inSmallLetters (text : String) : String :=
  String.ofList (text.toList.map smallLetter)

def smallByte (byte : UInt8) : UInt8 :=
  if 65 ≤ byte ∧ byte ≤ 90 then byte + 32 else byte

def utf8 (text : String) : Bytes :=
  text.toByteArray.data.toList

/-- The bytes of both texts are the same, but for the case of the letters A to Z. -/
def EqualButForCase (text other : String) : Prop :=
  (utf8 text).map smallByte = (utf8 other).map smallByte

instance (text other : String) : Decidable (EqualButForCase text other) :=
  inferInstanceAs (Decidable ((utf8 text).map smallByte = (utf8 other).map smallByte))

theorem forall_ascii (Holds : Char → Prop) (each : ∀ code < 128, Holds (Char.ofNat code))
    {c : Char} (ascii : c.toNat < 128) : Holds c := by
  have holds := each c.toNat ascii
  rwa [Char.ofNat_toNat] at holds

theorem smallLetter_of_lt {c : Char} (before : c.toNat < 65) : smallLetter c = c := by
  apply if_neg
  rintro ⟨capital, _⟩
  exact absurd capital (Nat.not_le_of_lt before)

theorem smallLetter_of_gt {c : Char} (after : 90 < c.toNat) : smallLetter c = c := by
  apply if_neg
  rintro ⟨_, capital⟩
  exact absurd capital (Nat.not_le_of_lt after)

theorem toLower_of_gt {c : Char} (after : 90 < c.toNat) : c.toLower = c := by
  apply dif_neg
  rintro ⟨_, capital⟩
  exact absurd capital (Nat.not_le_of_lt after)

theorem smallLetter_eq_toLower (c : Char) : smallLetter c = c.toLower := by
  by_cases ascii : c.toNat < 128
  · exact forall_ascii (fun c => smallLetter c = c.toLower) (by decide) ascii
  · rw [smallLetter_of_gt (by omega), toLower_of_gt (by omega)]

theorem toList_inSmallLetters (text : String) : (inSmallLetters text).toList = foldCase text := by
  rw [inSmallLetters, String.toList_ofList, foldCase]
  exact List.map_congr_left fun c _ => smallLetter_eq_toLower c

theorem foldCase_eq_iff (text name : String) :
    foldCase text = name.toList ↔ inSmallLetters text = name := by
  rw [← toList_inSmallLetters, String.toList_inj]

section Bytes

theorem utf8_inj {text other : String} : utf8 text = utf8 other ↔ text = other := by
  rw [utf8, utf8, Array.toList_inj, ← String.toByteArray_inj]
  exact ⟨ByteArray.ext, congrArg ByteArray.data⟩

theorem utf8_eq_flatMap (text : String) :
    utf8 text = text.toList.flatMap String.utf8EncodeChar := by
  have encoded : text.toByteArray = (text.toList.flatMap String.utf8EncodeChar).toByteArray := by
    rw [← List.utf8Encode, ← String.toByteArray_ofList, String.ofList_toList]
  rw [utf8, encoded, List.data_toByteArray]

theorem smallByte_of_ge {byte : UInt8} (beyond : 128 ≤ byte.toNat) : smallByte byte = byte := by
  apply if_neg
  rintro ⟨_, capital⟩
  exact absurd capital (Nat.not_le_of_lt (Nat.lt_of_lt_of_le (by decide) beyond))

theorem le_toNat_or (byte mark : UInt8) (high : 128 ≤ mark.toNat) :
    128 ≤ (byte ||| mark).toNat := by
  rw [UInt8.toNat_or]
  exact Nat.le_trans high Nat.right_le_or

/-- A character that takes more than one byte has a mark in the high bits of each of them. -/
theorem le_of_mem_utf8EncodeChar {c : Char} (beyond : 128 ≤ c.toNat) {byte : UInt8}
    (present : byte ∈ String.utf8EncodeChar c) : 128 ≤ byte.toNat := by
  rcases Char.utf8Size_eq c with one | two | three | four
  · have ascii : c.toNat ≤ 127 := Char.utf8Size_eq_one_iff.mp one
    omega
  · rw [String.utf8EncodeChar_eq_cons_cons two] at present
    simp only [List.mem_cons, List.not_mem_nil, or_false] at present
    rcases present with rfl | rfl <;> exact le_toNat_or _ _ (by decide)
  · rw [String.utf8EncodeChar_eq_cons_cons_cons three] at present
    simp only [List.mem_cons, List.not_mem_nil, or_false] at present
    rcases present with rfl | rfl | rfl <;> exact le_toNat_or _ _ (by decide)
  · rw [String.utf8EncodeChar_eq_cons_cons_cons_cons four] at present
    simp only [List.mem_cons, List.not_mem_nil, or_false] at present
    rcases present with rfl | rfl | rfl | rfl <;> exact le_toNat_or _ _ (by decide)

theorem map_smallByte_utf8EncodeChar (c : Char) :
    (String.utf8EncodeChar c).map smallByte = String.utf8EncodeChar (smallLetter c) := by
  by_cases ascii : c.toNat < 128
  · exact forall_ascii (fun c =>
      (String.utf8EncodeChar c).map smallByte = String.utf8EncodeChar (smallLetter c))
      (by decide) ascii
  · have kept : ∀ byte ∈ String.utf8EncodeChar c, smallByte byte = id byte := fun byte present =>
      smallByte_of_ge (le_of_mem_utf8EncodeChar (by omega) present)
    rw [smallLetter_of_gt (by omega), List.map_congr_left kept, List.map_id]

theorem map_smallByte_utf8 (text : String) :
    (utf8 text).map smallByte = utf8 (inSmallLetters text) := by
  rw [utf8_eq_flatMap, utf8_eq_flatMap, inSmallLetters, String.toList_ofList, List.map_flatMap,
    List.flatMap_map]
  simp only [map_smallByte_utf8EncodeChar]

theorem equalButForCase_iff (text other : String) :
    EqualButForCase text other ↔ inSmallLetters text = inSmallLetters other := by
  rw [EqualButForCase, map_smallByte_utf8, map_smallByte_utf8, utf8_inj]

theorem equalButForCase_small (text : String) {name : String} (small : inSmallLetters name = name) :
    EqualButForCase text name ↔ inSmallLetters text = name := by
  rw [equalButForCase_iff, small]

end Bytes

def names : Hash → List String
  | md5 => ["md5"]
  | sha1 => ["sha1", "sha-1"]

theorem forall_notMem_names_iff (name : String) :
    (∀ hash : Hash, name ∉ hash.names) ↔ name ∉ ["md5", "sha1", "sha-1"] := by
  change _ ↔ name ∉ md5.names ++ sha1.names
  rw [List.mem_append, not_or]
  constructor
  · intro unknown
    exact ⟨unknown md5, unknown sha1⟩
  · rintro ⟨notMd5, notSha1⟩ hash
    cases hash with
    | md5 => exact notMd5
    | sha1 => exact notSha1

theorem ofName?_eq_some_iff (text : String) (hash : Hash) :
    ofName? text = some hash ↔ inSmallLetters text ∈ hash.names := by
  simp only [ofName?, foldCase_eq_iff]
  by_cases isMd5 : inSmallLetters text = "md5"
  · rw [if_pos isMd5, isMd5]
    cases hash <;> decide
  · rw [if_neg isMd5]
    by_cases isSha1 : inSmallLetters text = "sha1" ∨ inSmallLetters text = "sha-1"
    · rw [if_pos isSha1]
      cases hash <;> simp [names, isMd5, isSha1]
    · rw [if_neg isSha1]
      cases hash <;> simp [names, isMd5, isSha1]

theorem parse_eq_ok_iff (text : String) (hash : Hash) :
    parse text = .ok hash ↔ inSmallLetters text ∈ hash.names := by
  rw [← ofName?_eq_some_iff, parse]
  cases ofName? text <;> simp

theorem parse_eq_error_iff (text : String) (failure : Failure) :
    parse text = .error failure ↔
      (∀ hash : Hash, inSmallLetters text ∉ hash.names) ∧ failure = .unknownHash text := by
  simp only [← ofName?_eq_some_iff, parse]
  cases ofName? text <;> simp [eq_comm]

theorem toOption_parse (text : String) : (parse text).toOption = ofName? text := by
  rw [parse]
  cases ofName? text <;> rfl

theorem ofName?_congr {text other : String} (same : inSmallLetters text = inSmallLetters other) :
    ofName? text = ofName? other := by
  rw [ofName?, ofName?, ← toList_inSmallLetters, ← toList_inSmallLetters, same]

/-- The three names are compared one after the other, byte by byte. -/
theorem parse_eq_comparisons (text : String) :
    parse text =
      if EqualButForCase text "md5" then .ok .md5
      else if EqualButForCase text "sha1" ∨ EqualButForCase text "sha-1" then .ok .sha1
      else .error (.unknownHash text) := by
  have isMd5 := equalButForCase_small text (show inSmallLetters "md5" = "md5" by decide)
  have isSha1 := equalButForCase_small text (show inSmallLetters "sha1" = "sha1" by decide)
  have isSha_1 := equalButForCase_small text (show inSmallLetters "sha-1" = "sha-1" by decide)
  by_cases first : EqualButForCase text "md5"
  · rw [if_pos first, parse_eq_ok_iff]
    exact List.mem_singleton.mpr (isMd5.mp first)
  rw [if_neg first]
  by_cases second : EqualButForCase text "sha1" ∨ EqualButForCase text "sha-1"
  · rw [if_pos second, parse_eq_ok_iff, names, List.mem_cons, List.mem_singleton, ← isSha1,
      ← isSha_1]
    exact second
  · rw [if_neg second, parse_eq_error_iff, forall_notMem_names_iff, List.mem_cons, List.mem_cons,
      List.mem_singleton, ← isMd5, ← isSha1, ← isSha_1, not_or]
    exact ⟨⟨first, second⟩, rfl⟩

/-- A character that is no visible character of ASCII is in no name, however its letters are
written. -/
theorem notMem_names_of_invisible {text : String} {c : Char} (present : c ∈ text.toList)
    (invisible : c.toNat < 33 ∨ 126 < c.toNat) (hash : Hash) :
    inSmallLetters text ∉ hash.names := by
  have kept : smallLetter c = c := by
    rcases invisible with before | after
    · exact smallLetter_of_lt (by omega)
    · exact smallLetter_of_gt (by omega)
  have stays : c ∈ (inSmallLetters text).toList := by
    rw [inSmallLetters, String.toList_ofList, ← kept]
    exact List.mem_map_of_mem present
  have visible : hash.names.all (fun name =>
      name.toList.all fun c => decide (33 ≤ c.toNat ∧ c.toNat ≤ 126)) = true := by
    cases hash <;> decide
  simp only [List.all_eq_true, decide_eq_true_eq] at visible
  intro named
  have := visible _ named c stays
  omega

theorem message_unknownHash_inj {text other : String} :
    (Failure.unknownHash text).message = (Failure.unknownHash other).message ↔ text = other := by
  have shown (name : String) : (Failure.unknownHash name).message =
      "config error" ++ " caused by: " ++ ("unknown hash algorithm: " ++ name) := rfl
  rw [shown, shown, String.append_right_inj, String.append_right_inj]

/-- A text names a hash if it is one of three names but for the case of ASCII letters. Any other
text is refused, and the refusal shows it as it was given. -/
theorem parse_iff_inSmallLetters (text other : String) :
    (parse text = .ok .md5 ↔ inSmallLetters text = "md5") ∧
      (parse text = .ok .sha1 ↔
        inSmallLetters text = "sha1" ∨ inSmallLetters text = "sha-1") ∧
      (∀ failure, parse text = .error failure ↔
        inSmallLetters text ∉ ["md5", "sha1", "sha-1"] ∧
          failure = .config ("unknown hash algorithm: " ++ text)) ∧
      ((∃ c ∈ text.toList, c.toNat < 33 ∨ 126 < c.toNat) →
        ∃ failure, parse text = .error failure) ∧
      (inSmallLetters text = inSmallLetters other →
        (parse text).toOption = (parse other).toOption) ∧
      (∀ failure another, parse text = .error failure → parse other = .error another →
        text ≠ other → failure.message ≠ another.message) ∧
      parse text =
        if EqualButForCase text "md5" then .ok .md5
        else if EqualButForCase text "sha1" ∨ EqualButForCase text "sha-1" then .ok .sha1
        else .error (.unknownHash text) := by
  refine ⟨?_, ?_, fun failure => ?_, ?_, fun same => ?_, ?_, parse_eq_comparisons text⟩
  · rw [parse_eq_ok_iff, names, List.mem_singleton]
  · rw [parse_eq_ok_iff, names, List.mem_cons, List.mem_singleton]
  · rw [parse_eq_error_iff, forall_notMem_names_iff, Failure.unknownHash]
  · rintro ⟨c, present, invisible⟩
    exact ⟨_, (parse_eq_error_iff text _).mpr ⟨notMem_names_of_invisible present invisible, rfl⟩⟩
  · rw [toOption_parse, toOption_parse, ofName?_congr same]
  · intro failure another refused refusedToo differ
    obtain ⟨_, rfl⟩ := (parse_eq_error_iff text failure).mp refused
    obtain ⟨_, rfl⟩ := (parse_eq_error_iff other another).mp refusedToo
    rw [ne_eq, message_unknownHash_inj]
    exact differ

/-- The long s becomes an s only where letters beyond ASCII are folded, and a blank is left out
only where texts are trimmed. -/
theorem parse_iff_inSmallLetters_long_s :
    (∃ c ∈ "\u017fha1".toList, c.toNat < 33 ∨ 126 < c.toNat) ∧
      parse "\u017fha1" = .error (.config "unknown hash algorithm: \u017fha1") ∧
      (∃ failure, parse "md5 " = .error failure) ∧
      (parse "sHA-1").toOption = (parse "ShA-1").toOption ∧
      (Failure.unknownHash "\u017fha1").message ≠ (Failure.unknownHash "md5 ").message := by
  obtain ⟨_, _, refused, _, _, differ, _⟩ := parse_iff_inSmallLetters "\u017fha1" "md5 "
  obtain ⟨_, _, _, invisible, _⟩ := parse_iff_inSmallLetters "md5 " ""
  obtain ⟨_, _, _, _, alike, _⟩ := parse_iff_inSmallLetters "sHA-1" "ShA-1"
  refine ⟨⟨'\u017f', by decide, by decide⟩, (refused _).mpr ⟨by decide, rfl⟩, ?_, ?_, ?_⟩
  · exact invisible ⟨' ', by decide, by decide⟩
  · exact alike (by decide)
  · exact differ _ _ rfl rfl (by decide)

end TlsKeys.Hash
