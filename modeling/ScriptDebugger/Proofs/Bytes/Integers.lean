import ScriptDebugger.Bytes

/-! Signed integers in bytes. Two's complement of some width gives back every integer that fits the
width and spells no other, wider forms hold what narrower ones do, and begin with them. -/
namespace ScriptDebugger.Bytes

theorem countPositive (width : Nat) : 0 < count width :=
  Nat.pow_pos (show 0 < 256 by decide)

theorem countMonotone {narrow wide : Nat} (order : narrow ≤ wide) : count narrow ≤ count wide :=
  Nat.pow_le_pow_right (by decide) order

theorem countAdd (low high : Nat) : count (low + high) = count low * count high :=
  Nat.pow_add 256 low high

theorem toNatBound (bytes : Bytes) : toNat bytes < count bytes.length := by
  induction bytes with
  | nil => exact Nat.one_pos
  | cons b rest ih =>
    have byte := b.toNat_lt
    rw [toNat, List.length_cons, countSucc]
    omega

theorem toIntOfInt {width : Nat} {i : Int} (holds : Holds width i) : toInt (ofInt width i) = i := by
  obtain ⟨low,high⟩ := holds
  have bound := countPositive width
  unfold toInt
  rw [lengthOfInt, ofInt, toNatOfNat]
  by_cases sign : 0 ≤ i
  · have reduced : i % (count width : Int) = i := Int.emod_eq_of_lt sign (by omega)
    rw [reduced, Nat.mod_eq_of_lt (by omega), if_pos (by omega)]
    omega
  · have reduced : i % (count width : Int) = i + count width := by
      rw [← Int.add_emod_right, Int.emod_eq_of_lt (by omega) (by omega)]
    rw [reduced, Nat.mod_eq_of_lt (by omega), if_neg (by omega)]
    omega

theorem toIntHolds (bytes : Bytes) : Holds bytes.length (toInt bytes) := by
  have bound := toNatBound bytes
  unfold toInt Holds
  split <;> omega

theorem holdsWider {narrow wide : Nat} {i : Int} (order : narrow ≤ wide) (holds : Holds narrow i) :
    Holds wide i := by
  have more := countMonotone order
  unfold Holds at holds ⊢
  omega

theorem holdsSucc (width : Nat) (i : Int) :
    Holds (width + 1) i ↔ -128 ≤ i / count width ∧ i / count width < 128 := by
  have positive : (0 : Int) < count width := Int.natCast_pos.mpr (countPositive width)
  rw [Int.le_ediv_iff_mul_le positive, Int.ediv_lt_iff_lt_mul positive, Holds, countSucc]
  omega

theorem shiftedSucc (width : Nat) (i : Int) : i / count (width + 1) = i / count width / 256 := by
  rw [Int.ediv_ediv_of_nonneg (Int.natCast_nonneg _), countSucc, Int.natCast_mul, Int.mul_comm]
  rfl

theorem ofIntSucc (width : Nat) (i : Int) :
    ofInt (width + 1) i = UInt8.ofNat (i % 256).toNat :: ofInt width (i / 256) := by
  have positive : (0 : Int) < count width := Int.natCast_pos.mpr (countPositive width)
  have whole : ((count (width + 1) : Nat) : Int) = 256 * count width := by
    rw [countSucc]
    rfl
  have low : i % (256 * count width) % 256 = i % 256 :=
    Int.emod_emod_of_dvd i (Int.dvd_mul_right 256 _)
  have high : i % (256 * count width) / 256 = i / 256 % count width := by
    rw [Int.emod_def, Int.emod_def, ← Int.ediv_ediv_of_nonneg (by decide), Int.mul_assoc]
    generalize (count width : Int) * (i / 256 / count width) = above
    omega
  have sign := Int.emod_nonneg i (show 256 * (count width : Int) ≠ 0 by omega)
  have byte : (i % (256 * count width)).toNat % 256 = (i % 256).toNat := by omega
  have rest : (i % (256 * count width)).toNat / 256 = (i / 256 % count width).toNat := by omega
  rw [ofInt, ofNat, whole, byte, rest]
  rfl

theorem takeOfInt {narrow wide : Nat} (order : narrow ≤ wide) (i : Int) :
    (ofInt wide i).take narrow = ofInt narrow i := by
  induction narrow generalizing wide i with
  | zero => rfl
  | succ narrow ih =>
    obtain ⟨wide,rfl⟩ : ∃ w, wide = w + 1 := ⟨wide - 1,by omega⟩
    rw [ofIntSucc, ofIntSucc, List.take_succ_cons, ih (by omega)]

theorem byteOfInt {width place : Nat} (inside : place < width) (i : Int) :
    ((ofInt width i).getD place 0).toNat = (i / count place % 256).toNat := by
  induction place generalizing width i with
  | zero =>
    obtain ⟨width,rfl⟩ : ∃ w, width = w + 1 := ⟨width - 1,by omega⟩
    have whole : i / count 0 = i := Int.ediv_one i
    rw [ofIntSucc, List.getD_cons_zero, whole, UInt8.toNat_ofNat']
    omega
  | succ place ih =>
    obtain ⟨width,rfl⟩ : ∃ w, width = w + 1 := ⟨width - 1,by omega⟩
    have next : i / count (place + 1) = i / 256 / count place := by
      rw [Int.ediv_ediv_of_nonneg (by decide), countSucc]
      rfl
    rw [ofIntSucc, List.getD_cons_succ, ih (by omega), next]

end ScriptDebugger.Bytes
