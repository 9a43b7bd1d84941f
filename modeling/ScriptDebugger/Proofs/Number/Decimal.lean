import ScriptDebugger.Number.Numeral

/-! Decimal numerals read back. A run of digits is read as its value if the range has it and is out of
range otherwise, on the side of its sign; so every integer of a range is what its own text is read
as, and zeros in front change nothing. What is read as an unsigned number is a run of digits, with a
plus sign in front or without. -/
namespace ScriptDebugger.Numeral

def signed (negative : Bool) (n : Nat) : Int := if negative then -n else n

def outside (negative : Bool) : ReadError := if negative then .tooSmall else .tooLarge

variable {r : IntRange} {negative : Bool}

theorem valueGrows (digits : List Char) (value : Nat) :
    value ≤ Nat.ofDigitChars 10 digits value := by
  have scaled : value ≤ 10 ^ digits.length * value :=
    Nat.le_mul_of_pos_left value (Nat.pow_pos (by decide))
  rw [Nat.ofDigitChars_eq_ofDigitChars_zero]
  omega

theorem containsSmaller {small large : Nat} (zero : r.Contains 0) (order : small ≤ large)
    (held : r.Contains (signed negative large)) : r.Contains (signed negative small) := by
  obtain ⟨low,high⟩ := zero
  have positive : (0 : Int) ≤ small := Int.natCast_nonneg small
  cases negative with
  | false =>
    have value : signed false small ≤ signed false large := Int.ofNat_le.mpr order
    exact ⟨Int.le_trans low positive,Int.le_trans value held.2⟩
  | true =>
    have value : signed true large ≤ signed true small := Int.neg_le_neg (Int.ofNat_le.mpr order)
    exact ⟨Int.le_trans held.1 value,Int.le_trans (Int.neg_nonpos_of_nonneg positive) high⟩

theorem signedOnward (value d : Nat) :
    (if negative then 10 * signed negative value - d else 10 * signed negative value + d) =
      signed negative (10 * value + d) := by
  cases negative with
  | false => simp [signed]
  | true =>
    simp [signed]
    omega

-- Zero is inside, so a number can leave the range only on the side of its sign.
theorem boundsChecked {β : Type} (n : Nat) (inside : β) (error : ReadError → β)
    (zero : r.Contains 0) :
    (if signed negative n < r.low then error .tooSmall
      else if r.high < signed negative n then error .tooLarge else inside) =
      if r.Contains (signed negative n) then inside else error (outside negative) := by
  obtain ⟨low,high⟩ := zero
  cases negative with
  | false =>
    have above : r.low ≤ signed false n := Int.le_trans low (Int.natCast_nonneg n)
    rw [if_neg (Int.not_lt.mpr above)]
    by_cases top : signed false n ≤ r.high
    · rw [if_neg (Int.not_lt.mpr top), if_pos ⟨above,top⟩]
    · rw [if_pos (Int.not_le.mp top), if_neg fun held => top held.2]
      rfl
  | true =>
    have below : signed true n ≤ r.high :=
      Int.le_trans (Int.neg_nonpos_of_nonneg (Int.natCast_nonneg n)) high
    by_cases bottom : r.low ≤ signed true n
    · rw [if_neg (Int.not_lt.mpr bottom), if_neg (Int.not_lt.mpr below), if_pos ⟨bottom,below⟩]
    · rw [if_pos (Int.not_le.mp bottom), if_neg fun held => bottom held.1]
      rfl

theorem readDigit {c : Char} (rest : List Char) (value : Nat) (zero : r.Contains 0)
    (digit : c.isDigit) :
    let next := signed negative (10 * value + (c.toNat - '0'.toNat))
    readDigits r negative (signed negative value) (c :: rest) =
      if r.Contains next then readDigits r negative next rest
      else .error (outside negative) := by
  have known : digitValue? c = some (c.toNat - '0'.toNat) := if_pos digit
  simp only [readDigits, known, signedOnward]
  exact boundsChecked _ (readDigits r negative _ rest) .error zero

theorem readRun {digits : List Char} {value : Nat} (zero : r.Contains 0)
    (all : ∀ c ∈ digits, c.isDigit) (held : r.Contains (signed negative value)) :
    let total := signed negative (Nat.ofDigitChars 10 digits value)
    readDigits r negative (signed negative value) digits =
      if r.Contains total then .ok total else .error (outside negative) := by
  intro total
  induction digits generalizing value with
  | nil => exact (if_pos held).symm
  | cons c rest ih =>
    have later := fun d member => all d (List.mem_cons_of_mem c member)
    rw [readDigit rest value zero (all c List.mem_cons_self)]
    split
    · next inside => exact ih later inside
    · next out =>
      have gone : ¬ r.Contains total := fun inside =>
        out (containsSmaller zero (valueGrows rest _) inside)
      exact (if_neg gone).symm

theorem readUnsigned {digits : List Char} (zero : r.Contains 0) (some : digits ≠ [])
    (all : ∀ c ∈ digits, c.isDigit) :
    let value : Int := Nat.ofDigitChars 10 digits 0
    readChars r digits = if r.Contains value then .ok value else .error .tooLarge := by
  have plain : readChars r digits = readDigits r false 0 digits := by
    unfold readChars
    split
    · contradiction
    · exact absurd (all '+' (by simp)) (by decide)
    · exact absurd (all '+' (by simp)) (by decide)
    · exact absurd (all '-' (by simp)) (by decide)
    · exact absurd (all '-' (by simp)) (by decide)
    · rfl
  rw [plain]
  exact @readRun r false digits 0 zero all zero

theorem readNegated {digits : List Char} (zero : r.Contains 0) (below : r.low < 0)
    (some : digits ≠ []) (all : ∀ c ∈ digits, c.isDigit) :
    let value : Int := -(Nat.ofDigitChars 10 digits 0 : Nat)
    readChars r ('-' :: digits) = if r.Contains value then .ok value else .error .tooSmall := by
  have plain : readChars r ('-' :: digits) = readDigits r true 0 digits := by
    cases digits with
    | nil => contradiction
    | cons c rest => exact if_pos below
  rw [plain]
  exact @readRun r true digits 0 zero all zero

theorem decimalDigits {n : Nat} : ∀ c ∈ Nat.toDigits 10 n, c.isDigit :=
  fun _ member => Nat.isDigit_of_mem_toDigits (by decide) (by decide) member

theorem readDecimal (zero : r.Contains 0) {i : Int} (held : r.Contains i) :
    read r (toString i) = .ok i := by
  rw [read, Int.toString_eq_repr, Int.repr_eq_if]
  split
  · next sign =>
    have same : ((i.toNat : Nat) : Int) = i := Int.toNat_of_nonneg sign
    rw [Nat.toList_repr, readUnsigned zero Nat.toDigits_ne_nil decimalDigits,
      Nat.ofDigitChars_ten_toDigits, same, if_pos held]
  · next sign =>
    have same : -(((-i).toNat : Nat) : Int) = i := by omega
    have below : r.low < 0 := Int.lt_of_le_of_lt held.1 (Int.not_le.mp sign)
    rw [String.toList_append, Nat.toList_repr]
    change readChars r ('-' :: Nat.toDigits 10 (-i).toNat) = _
    rw [readNegated zero below Nat.toDigits_ne_nil decimalDigits, Nat.ofDigitChars_ten_toDigits,
      same, if_pos held]

theorem unsignedContains (bits n : Nat) : (IntRange.unsigned bits).Contains n ↔ n < Nat.pow 2 bits := by
  have positive : 0 < Nat.pow 2 bits := Nat.pow_pos (by decide)
  change 0 ≤ (n : Int) ∧ (n : Int) ≤ (Nat.pow 2 bits : Nat) - 1 ↔ _
  omega

theorem unsignedZero (bits : Nat) : (IntRange.unsigned bits).Contains 0 :=
  (unsignedContains bits 0).mpr (Nat.pow_pos (by decide))

/-- A number written with zeros in front. -/
def padded (zeros n : Nat) : List Char := List.replicate zeros '0' ++ Nat.toDigits 10 n

theorem paddedSome (zeros n : Nat) : padded zeros n ≠ [] :=
  List.append_ne_nil_of_right_ne_nil _ Nat.toDigits_ne_nil

theorem paddedDigits {zeros n : Nat} : ∀ c ∈ padded zeros n, c.isDigit := by
  intro c member
  rcases List.mem_append.mp member with front | back
  · rw [List.eq_of_mem_replicate front]
    rfl
  · exact decimalDigits c back

theorem paddedValue (zeros n : Nat) : Nat.ofDigitChars 10 (padded zeros n) 0 = n := by
  rw [padded, Nat.ofDigitChars_append, Nat.ofDigitChars_replicate_zero, Nat.mul_zero,
    Nat.ofDigitChars_ten_toDigits]

theorem readPadded (bits zeros n : Nat) :
    readNat bits (String.ofList (padded zeros n)) =
      if n < Nat.pow 2 bits then .ok n else .error .tooLarge := by
  rw [readNat, read, String.toList_ofList,
    readUnsigned (unsignedZero bits) (paddedSome zeros n) paddedDigits, paddedValue]
  simp only [unsignedContains]
  split
  · rfl
  · rfl

/-! Texts that are read -/

theorem digitsOnly {digits : List Char} {value total : Int}
    (read : readDigits r negative value digits = .ok total) : ∀ c ∈ digits, c.isDigit := by
  induction digits generalizing value with
  | nil => nofun
  | cons c rest ih =>
    by_cases digit : c.isDigit
    · have known : digitValue? c = some (c.toNat - 48) := if_pos digit
      simp only [readDigits, known] at read
      generalize (if negative then 10 * value - _ else 10 * value + _) = next at read
      split at read
      · cases read
      · split at read
        · cases read
        · simp only [List.mem_cons, forall_eq_or_imp]
          exact ⟨digit,ih read⟩
    · have unknown : digitValue? c = none := if_neg digit
      simp only [readDigits, unknown] at read
      cases read

/-- What follows a plus sign, if there is one. -/
def behindPlus : List Char → List Char
  | '+' :: rest => rest
  | cs => cs

/-- Digits that come to a number, behind a plus sign or not. -/
structure Writes (n : Nat) (cs : List Char) : Prop where
  some : behindPlus cs ≠ []
  digits : ∀ c ∈ behindPlus cs, c.isDigit
  value : Nat.ofDigitChars 10 (behindPlus cs) 0 = n

theorem behindNoPlus {cs : List Char} (unsigned : ∀ rest, cs ≠ '+' :: rest) : behindPlus cs = cs := by
  unfold behindPlus
  split
  · exact absurd rfl (unsigned _)
  · rfl

theorem writesDecimal (n : Nat) : Writes n (Nat.toDigits 10 n) := by
  have plain : behindPlus (Nat.toDigits 10 n) = Nat.toDigits 10 n := by
    refine behindNoPlus fun rest same => ?_
    exact absurd (decimalDigits '+' (by rw [same]; exact List.mem_cons_self)) (by decide)
  constructor
  · rw [plain]
    exact Nat.toDigits_ne_nil
  · rw [plain]
    exact decimalDigits
  · rw [plain, Nat.ofDigitChars_ten_toDigits]

theorem runExact {bits : Nat} {digits : List Char} {i : Int} :
    readDigits (.unsigned bits) false 0 digits = .ok i ↔
      (∀ c ∈ digits, c.isDigit) ∧ Nat.ofDigitChars 10 digits 0 < Nat.pow 2 bits ∧
        i = Nat.ofDigitChars 10 digits 0 := by
  by_cases all : ∀ c ∈ digits, c.isDigit
  · have run : readDigits (.unsigned bits) false 0 digits = _ :=
      @readRun _ false digits 0 (unsignedZero bits) all (unsignedZero bits)
    rw [run]
    simp only [signed, Bool.false_eq_true, if_false, unsignedContains]
    split
    · next held =>
      rw [Except.ok.injEq]
      exact ⟨fun same => ⟨all,held,same.symm⟩,fun both => both.2.2.symm⟩
    · next gone => exact iff_of_false nofun fun both => gone both.2.1
  · exact iff_of_false (fun read => all (digitsOnly read)) fun both => all both.1

theorem runWrites {bits : Nat} {cs : List Char} {i : Int} (some : behindPlus cs ≠ []) :
    readDigits (.unsigned bits) false 0 (behindPlus cs) = .ok i ↔
      ∃ n, Writes n cs ∧ n < Nat.pow 2 bits ∧ i = n := by
  rw [runExact]
  constructor
  · rintro ⟨all,held,same⟩
    exact ⟨_,⟨some,all,rfl⟩,held,same⟩
  · rintro ⟨_,⟨_,all,rfl⟩,held,same⟩
    exact ⟨all,held,same⟩

theorem writesNoMinus {n : Nat} {rest : List Char} : ¬ Writes n ('-' :: rest) :=
  fun writes => absurd (writes.digits '-' List.mem_cons_self) (by decide)

theorem charsExact {bits : Nat} {cs : List Char} {i : Int} :
    readChars (.unsigned bits) cs = .ok i ↔ ∃ n, Writes n cs ∧ n < Nat.pow 2 bits ∧ i = n := by
  fun_cases readChars with
  | case1 => exact iff_of_false nofun fun ⟨_,writes,_⟩ => writes.some rfl
  | case2 => exact iff_of_false nofun fun ⟨_,writes,_⟩ => writes.some rfl
  | case3 digits some => exact @runWrites bits ('+' :: digits) i some
  | case4 => exact iff_of_false nofun fun ⟨_,writes,_⟩ => writesNoMinus writes
  | case5 digits some below => exact absurd below (Int.lt_irrefl 0)
  | case6 => exact iff_of_false nofun fun ⟨_,writes,_⟩ => writesNoMinus writes
  | case7 _ some _ plus =>
    have plain : behindPlus cs = cs := behindNoPlus plus
    rw [← @runWrites bits cs i (by rwa [plain]), plain]

theorem readNatExact {bits n : Nat} {text : String} :
    readNat bits text = .ok n ↔ Writes n text.toList ∧ n < Nat.pow 2 bits := by
  have exact (i : Int) : read (.unsigned bits) text = .ok i ↔ _ := charsExact
  rw [readNat]
  cases chars : read (.unsigned bits) text with
  | error cause =>
    refine iff_of_false nofun fun ⟨writes,held⟩ => ?_
    cases chars.symm.trans ((exact n).mpr ⟨n,writes,held,rfl⟩)
  | ok i =>
    obtain ⟨m,writes,held,rfl⟩ := (exact i).mp chars
    constructor
    · rintro ⟨⟩
      exact ⟨writes,held⟩
    · rintro ⟨other,inside⟩
      cases chars.symm.trans ((exact n).mpr ⟨n,other,inside,rfl⟩)
      rfl

end ScriptDebugger.Numeral
