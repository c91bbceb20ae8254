import TlsKeys.Family
import TlsKeys.Generator.Script
import TlsKeys.Proofs.Output

/-!
Which secrets have the same halves.

A secret is a left part, a middle of at most one byte, and a right part as long
as the left one (`exists_middle`). The halves are the left part with the middle
and the middle with the right part. So the halves tell the secret, but for one
thing: whether a byte that they share stood in the secret once or twice.
-/

namespace TlsKeys

theorem exists_middle (secret : Bytes) :
    ∃ left middle right : Bytes, left.length = right.length ∧
      middle.length = secret.length % 2 ∧ secret = left ++ middle ++ right := by
  let part := secret.length / 2
  refine ⟨secret.take part, (secret.drop part).take (secret.length % 2),
    (secret.drop part).drop (secret.length % 2), ?_, ?_, ?_⟩
  · simp only [List.length_take, List.length_drop, part]
    omega
  · simp only [List.length_take, List.length_drop, part]
    omega
  · rw [List.append_assoc, List.take_append_drop, List.take_append_drop]

theorem halves_append {left middle right : Bytes} (same : left.length = right.length)
    (short : middle.length ≤ 1) :
    halves (left ++ middle ++ right) = (left ++ middle, middle ++ right) := by
  have half : halfLength (left ++ middle ++ right).length = (left ++ middle).length := by
    simp only [halfLength, List.length_append]
    omega
  have before : (left ++ middle ++ right).length - (left ++ middle).length = left.length := by
    simp only [List.length_append]
    omega
  rw [halves, half, before, List.take_left, List.append_assoc, List.drop_left]

/-- Every byte of a secret is in a half, and at most the middle one is in both. -/
theorem exists_halves_eq (secret : Bytes) :
    ∃ left middle right : Bytes, left.length = right.length ∧
      middle.length = secret.length % 2 ∧ secret = left ++ middle ++ right ∧
      halves secret = (left ++ middle, middle ++ right) := by
  obtain ⟨left, middle, right, same, parity, parts⟩ := exists_middle secret
  have short : middle.length ≤ 1 := by omega
  refine ⟨left, middle, right, same, parity, parts, ?_⟩
  rw [parts]
  exact halves_append same short

theorem append_drop_halves (secret : Bytes) :
    (halves secret).1 ++ (halves secret).2.drop (secret.length % 2) = secret := by
  obtain ⟨left, middle, right, _, parity, parts, halvesAre⟩ := exists_halves_eq secret
  rw [halvesAre, ← parity, List.drop_left, ← parts]

/-- The first secret has a middle byte, and the second is the first with this byte written twice. -/
def MiddleDoubled (secret doubled : Bytes) : Prop :=
  ∃ (left : Bytes) (middle : UInt8) (right : Bytes), left.length = right.length ∧
    secret = left ++ middle :: right ∧ doubled = left ++ middle :: middle :: right

theorem MiddleDoubled.halves_eq {secret doubled : Bytes} (twice : MiddleDoubled secret doubled) :
    halves secret = halves doubled := by
  obtain ⟨left, middle, right, same, once, both⟩ := twice
  have shared : halves secret = (left ++ [middle], [middle] ++ right) := by
    rw [once, List.append_cons]
    exact halves_append same (Nat.le_refl 1)
  have apart : halves doubled = (left ++ [middle], [middle] ++ right) := by
    have longer : (left ++ [middle]).length = ([middle] ++ right).length := by
      simp [same]
    have split : halves (left ++ [middle] ++ [] ++ ([middle] ++ right)) =
        (left ++ [middle] ++ [], [] ++ ([middle] ++ right)) :=
      halves_append longer (Nat.zero_le 1)
    rw [List.append_nil, List.nil_append, List.append_assoc] at split
    rw [both]
    exact split
  rw [shared, apart]

theorem middleDoubled_append {left right : Bytes} (byte : UInt8)
    (same : left.length = right.length) :
    MiddleDoubled (left ++ [byte] ++ right) (left ++ [byte] ++ ([byte] ++ right)) :=
  ⟨left, byte, right, same, List.append_assoc .., List.append_assoc ..⟩

theorem eq_nil_or_singleton {middle : Bytes} (short : middle.length ≤ 1) :
    middle = [] ∨ ∃ byte, middle = [byte] := by
  rcases Nat.le_one_iff_eq_zero_or_eq_one.mp short with none | one
  · exact .inl (List.eq_nil_of_length_eq_zero none)
  · exact .inr (List.length_eq_one_iff.mp one)

theorem eq_or_middleDoubled_of_halves_eq {secret other : Bytes}
    (equal : halves secret = halves other) :
    secret = other ∨ MiddleDoubled secret other ∨ MiddleDoubled other secret := by
  obtain ⟨left, middle, right, same, parity, parts, halvesAre⟩ := exists_halves_eq secret
  obtain ⟨left', middle', right', same', parity', parts', halvesAre'⟩ := exists_halves_eq other
  rw [halvesAre, halvesAre', Prod.mk.injEq] at equal
  obtain ⟨firsts, lasts⟩ := equal
  have short : middle.length ≤ 1 := by omega
  have short' : middle'.length ≤ 1 := by omega
  rw [parts, parts']
  -- Where one secret has a middle byte and the other has none, the byte ends the left part of the
  -- other and begins its right part.
  rcases eq_nil_or_singleton short with rfl | ⟨byte, rfl⟩ <;>
    rcases eq_nil_or_singleton short' with rfl | ⟨byte', rfl⟩
  case inl.inl =>
    rw [List.nil_append, List.nil_append] at lasts
    rw [firsts, lasts]
    exact .inl rfl
  case inl.inr =>
    rw [List.nil_append] at lasts
    rw [firsts, lasts]
    exact .inr (.inr (middleDoubled_append byte' same'))
  case inr.inl =>
    rw [List.nil_append] at lasts
    rw [← firsts, ← lasts]
    exact .inr (.inl (middleDoubled_append byte same))
  case inr.inr =>
    obtain ⟨lefts, middles⟩ := List.append_inj' firsts rfl
    obtain ⟨_, rights⟩ := List.append_inj lasts rfl
    rw [lefts, middles, rights]
    exact .inl rfl

theorem halves_eq_iff {secret other : Bytes} :
    halves secret = halves other ↔
      secret = other ∨ MiddleDoubled secret other ∨ MiddleDoubled other secret := by
  constructor
  · exact eq_or_middleDoubled_of_halves_eq
  · rintro (rfl | twice | twice)
    · rfl
    · exact twice.halves_eq
    · exact twice.halves_eq.symm

theorem ofSecret_eq_of_halves_eq {secret other : Bytes} (equal : halves secret = halves other)
    (seed : Bytes) : Generator.ofSecret secret seed = Generator.ofSecret other seed := by
  have keys : KeyStream.expansions secret = KeyStream.expansions other := by
    rw [KeyStream.expansions, KeyStream.expansions, equal]
  rw [Generator.ofSecret_eq_ok, Generator.ofSecret_eq_ok, KeyStream.ofSecret, KeyStream.ofSecret,
    keys]

/-- The halves of a secret are as long as its length divided by two and rounded up, and the secret
can be put together from them, if its length is known to be even or odd. Two secrets have the same
halves if they are the same, or if they differ in whether a middle byte is written once or twice.
No generator tells such a pair apart, whatever is done to it and to its copies. -/
theorem halves_collide_iff (secret other : Bytes) :
    let (first, last) := halves secret
    (first.length = (secret.length + 1) / 2 ∧ last.length = (secret.length + 1) / 2 ∧
        secret = first ++ last.drop (secret.length % 2) ∧
        ∃ left middle right : Bytes, left.length = right.length ∧
          middle.length = secret.length % 2 ∧ secret = left ++ middle ++ right ∧
          first = left ++ middle ∧ last = middle ++ right) ∧
      (halves secret = halves other ↔
        secret = other ∨ MiddleDoubled secret other ∨ MiddleDoubled other secret) ∧
      (halves secret = halves other → ∀ seed, ∃ one another,
        Generator.ofSecret secret seed = .ok one ∧ Generator.ofSecret other seed = .ok another ∧
          one = another ∧ ∀ commands,
            Family.run Generator.step commands [one] =
              Family.run Generator.step commands [another]) := by
  refine ⟨?_, halves_eq_iff, ?_⟩
  · obtain ⟨firstLength, lastLength⟩ := length_halves secret
    obtain ⟨left, middle, right, same, parity, parts, halvesAre⟩ := exists_halves_eq secret
    obtain ⟨firstIs, lastIs⟩ := Prod.mk.inj halvesAre
    exact ⟨firstLength, lastLength, (append_drop_halves secret).symm, left, middle, right, same,
      parity, parts, firstIs, lastIs⟩
  · intro equal seed
    have given := ofSecret_eq_of_halves_eq equal seed
    rw [Generator.ofSecret_eq_ok] at given
    exact ⟨_, _, Generator.ofSecret_eq_ok secret seed, given.symm, rfl, fun _ => rfl⟩

theorem halves_collide_iff_doubled :
    halves [1, 2, 3] = halves [1, 2, 2, 3] ∧ MiddleDoubled [1, 2, 3] [1, 2, 2, 3] ∧
      ∃ one another, Generator.ofSecret [1, 2, 3] [4] = .ok one ∧
        Generator.ofSecret [1, 2, 2, 3] [4] = .ok another ∧ one = another ∧
        let commands : List (Family.Command Generator Generator.Op) :=
          [.call 0 (.read (.take 81)), .copy 0, .call 1 (.configure (.ofSeed [5])),
            .call 0 (.read .word64)]
        Family.run Generator.step commands [one] = Family.run Generator.step commands [another] := by
  have twice : MiddleDoubled [1, 2, 3] [1, 2, 2, 3] := ⟨[1], 2, [3], rfl, rfl, rfl⟩
  obtain ⟨_, collides, alike⟩ := halves_collide_iff [1, 2, 3] [1, 2, 2, 3]
  have equal := collides.mpr (.inr (.inl twice))
  obtain ⟨one, another, made, madeToo, same, answered⟩ := alike equal [4]
  exact ⟨equal, twice, one, another, made, madeToo, same, answered _⟩

end TlsKeys
