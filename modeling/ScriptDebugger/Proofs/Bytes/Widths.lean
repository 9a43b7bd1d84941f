import ScriptDebugger.Proofs.Bytes.Integers

/-! How many bytes an integer takes. Dropping bytes that repeat the sign ends at the least width that
holds the integer, and filling up with such bytes spells the same integer again. So the shortest form of
an integer is read back, and nothing shorter is read as that integer. -/
namespace ScriptDebugger.Bytes

theorem topSignTold (b : UInt8) : (topSign b != 0) = decide (128 ≤ b.toNat) := by
  have table : ∀ n : Fin 256, (topSign (.ofNat n) != 0) = decide (128 ≤ n.val) := by decide +kernel
  simpa using table ⟨b.toNat,b.toNat_lt⟩

theorem topSignRepeats (b : UInt8) (negative : Bool) :
    topSign b = topSign (signByte negative) ↔ (128 ≤ b.toNat ↔ negative = true) := by
  have table : ∀ n : Fin 256, topSign (.ofNat n) = topSign (signByte negative) ↔
      (128 ≤ n.val ↔ negative = true) := by
    cases negative <;> decide +kernel
  simpa using table ⟨b.toNat,b.toNat_lt⟩

theorem signByteValue (negative : Bool) :
    (signByte negative).toNat = if negative then 255 else 0 := by
  cases negative <;> rfl

-- The topmost byte can go exactly if one byte less still holds the integer.
theorem repeatsSign {width : Nat} {i : Int} (inside : width + 2 ≤ 16) (holds : Holds (width + 2) i) :
    ((ofInt 16 i).getD (width + 1) 0 = signByte (i < 0) ∧
      topSign ((ofInt 16 i).getD width 0) = topSign (signByte (i < 0))) ↔ Holds (width + 1) i := by
  have top := byteOfInt (show width + 1 < 16 by omega) i
  have below := byteOfInt (show width < 16 by omega) i
  have positive : (0 : Int) < count width := Int.natCast_pos.mpr (countPositive width)
  have sign : i / count width < 0 ↔ i < 0 := by
    rw [Int.ediv_lt_iff_lt_mul positive, Int.zero_mul]
  rw [holdsSucc, shiftedSucc] at holds
  rw [shiftedSucc] at top
  rw [holdsSucc, topSignRepeats, ← UInt8.toNat_inj, signByteValue, top, below]
  simp only [decide_eq_true_eq, ← sign]
  generalize i / (count width : Int) = q at *
  split <;> omega

theorem trimmedBound (bytes : Bytes) (fill : UInt8) (width : Nat) :
    trimmed bytes fill width ≤ width := by
  fun_induction trimmed bytes fill width with
  | case1 width _ ih => omega
  | case2 | case3 => omega

theorem trimmedHolds {width : Nat} {i : Int} (inside : width ≤ 16) (holds : Holds width i) :
    Holds (trimmed (ofInt 16 i) (signByte (i < 0)) width) i := by
  fun_induction trimmed (ofInt 16 i) (signByte (i < 0)) width with
  | case1 width goes ih => exact ih (by omega) ((repeatsSign inside holds).mp goes)
  | case2 | case3 => exact holds

theorem trimmedLeast {width least : Nat} {i : Int} (inside : width ≤ 16) (holds : Holds width i)
    (nonempty : 1 ≤ least) (enough : Holds least i) :
    trimmed (ofInt 16 i) (signByte (i < 0)) width ≤ least := by
  fun_induction trimmed (ofInt 16 i) (signByte (i < 0)) width with
  | case1 width goes ih => exact ih (by omega) ((repeatsSign inside holds).mp goes)
  | case2 width stays =>
    rcases Nat.lt_or_ge least (width + 2) with less | wide
    · exact absurd ((repeatsSign inside holds).mpr (holdsWider (by omega) enough)) stays
    · exact wide
  | case3 width small =>
    rcases Nat.lt_or_ge width 2 with one | more
    · omega
    · exact absurd (show width = width - 2 + 2 by omega) (small (width - 2))

theorem minimalWidthBound (i : Int) : minimalWidth i ≤ 16 := trimmedBound _ _ 16

theorem minimalWidthHolds {i : Int} (fits : InInt128 i) : Holds (minimalWidth i) i :=
  trimmedHolds (Nat.le_refl 16) fits

theorem minimalWidthLeast {width : Nat} {i : Int} (fits : InInt128 i) (nonempty : 1 ≤ width)
    (enough : Holds width i) : minimalWidth i ≤ width :=
  trimmedLeast (Nat.le_refl 16) fits nonempty enough

theorem toNatAppend (low high : Bytes) :
    toNat (low ++ high) = toNat low + count low.length * toNat high := by
  induction low with
  | nil => simp [toNat, count]
  | cons b low ih =>
    rw [List.cons_append, toNat, ih, toNat, List.length_cons, countSucc, Nat.mul_add, Nat.mul_assoc,
      Nat.add_assoc]

theorem toNatFilled (negative : Bool) (many : Nat) :
    toNat (List.replicate many (signByte negative)) = if negative then count many - 1 else 0 := by
  induction many with
  | zero => cases negative <;> rfl
  | succ many ih =>
    have positive := countPositive many
    rw [List.replicate_succ, toNat, ih, signByteValue, countSucc]
    split <;> omega

theorem negativeTold (bytes : Bytes) :
    isNegative bytes = decide (count bytes.length ≤ 2 * toNat bytes) := by
  rcases List.eq_nil_or_concat bytes with rfl | ⟨low,top,rfl⟩
  · rfl
  · have bound := toNatBound low
    have byte := top.toNat_lt
    have whole : toNat (low.concat top) = toNat low + count low.length * top.toNat := by
      rw [List.concat_eq_append, toNatAppend]
      rfl
    rw [whole, List.length_concat, countSucc, isNegative, List.concat_eq_append,
      List.getLast?_concat, Option.any_some, topSignTold, decide_eq_decide]
    constructor
    · intro high
      have := Nat.mul_le_mul_left (count low.length) high
      omega
    · intro high
      rcases Nat.lt_or_ge top.toNat 128 with less | more
      · have := Nat.mul_le_mul_left (count low.length) (show top.toNat ≤ 127 by omega)
        omega
      · exact more

theorem extendedReads {bytes : Bytes} (short : bytes.length ≤ 16) : toInt128 bytes = toInt bytes := by
  have bound := toNatBound bytes
  have filled := toNatFilled (isNegative bytes) (16 - bytes.length)
  have length : (extended bytes).length = 16 := by
    rw [extended, List.length_append, List.length_take, List.length_replicate]
    omega
  have wide : count 16 = count bytes.length * count (16 - bytes.length) := by
    rw [← countAdd, Nat.add_sub_cancel' short]
  have more := countMonotone short
  have value : toNat (extended bytes) =
      toNat bytes + if isNegative bytes then count 16 - count bytes.length else 0 := by
    rw [extended, List.take_of_length_le short, toNatAppend, filled]
    cases isNegative bytes with
    | false => rfl
    | true => rw [if_pos rfl, if_pos rfl, wide, Nat.mul_sub, Nat.mul_one]
  unfold toInt128 toInt
  rw [length, value, negativeTold]
  by_cases negative : count bytes.length ≤ 2 * toNat bytes
  · rw [decide_eq_true negative, if_pos rfl, if_neg (by omega), if_neg (by omega)]
    omega
  · rw [decide_eq_false negative, if_neg Bool.false_ne_true, if_pos (by omega), if_pos (by omega)]
    rfl

theorem readBack {width : Nat} {i : Int} (narrow : width ≤ 16) (holds : Holds width i) :
    toInt128 (ofInt width i) = i := by
  rw [extendedReads (by rwa [lengthOfInt]), toIntOfInt holds]

theorem readHolds {bytes : Bytes} (short : bytes.length ≤ 16) :
    Holds bytes.length (toInt128 bytes) := by
  rw [extendedReads short]
  exact toIntHolds bytes

theorem shortestBytes {i : Int} (other : i ≠ 0) : ofIntShortest i = ofInt (minimalWidth i) i := by
  rw [ofIntShortest, if_neg other, takeOfInt (minimalWidthBound i)]

theorem shortestLength (i : Int) : (ofIntShortest i).length ≤ 16 := by
  unfold ofIntShortest
  split
  · exact Nat.zero_le 16
  · rw [List.length_take]
    have bound := minimalWidthBound i
    omega

theorem shortestReadBack {i : Int} (fits : InInt128 i) : toInt128 (ofIntShortest i) = i := by
  by_cases zero : i = 0
  · subst zero
    decide
  · rw [shortestBytes zero, readBack (minimalWidthBound i) (minimalWidthHolds fits)]

-- No byte at all holds nothing but zero.
theorem shortestLeast {bytes : Bytes} (short : bytes.length ≤ 16) (fits : InInt128 (toInt128 bytes)) :
    (ofIntShortest (toInt128 bytes)).length ≤ bytes.length := by
  have holds := readHolds short
  by_cases zero : toInt128 bytes = 0
  · rw [ofIntShortest, if_pos zero]
    exact Nat.zero_le _
  · rw [shortestBytes zero, lengthOfInt]
    have nonempty : bytes ≠ [] := fun none => zero (none ▸ rfl)
    exact minimalWidthLeast fits (List.length_pos_iff.mpr nonempty) holds

end ScriptDebugger.Bytes
