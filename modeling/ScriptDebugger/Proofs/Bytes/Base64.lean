import ScriptDebugger.Bytes.Base64
import ScriptDebugger.Proofs.Text.Utf8

/-! Bytes in base64 read back. The text is the six-bit groups of the bytes, each as its symbol, and
then up to two paddings; reading collects the groups again and packs them, and finds neither the
length, the padding nor the spare bits of the last group amiss. -/
namespace ScriptDebugger.Base64

def groups : Bytes → List Nat
  | a :: b :: c :: rest =>
    let n := a.toNat * 65536 + b.toNat * 256 + c.toNat
    n / 262144 :: n / 4096 % 64 :: n / 64 % 64 :: n % 64 :: groups rest
  | [a, b] =>
    let n := a.toNat * 1024 + b.toNat * 4
    [n / 4096, n / 64 % 64, n % 64]
  | [a] => [a.toNat * 16 / 64, a.toNat * 16 % 64]
  | [] => []

def missing : Bytes → Nat
  | _ :: _ :: _ :: rest => missing rest
  | [_, _] => 1
  | [_] => 2
  | [] => 0

def symbolByte (v : Nat) : UInt8 := UInt8.ofNat (symbol v).toNat

theorem encodeGroups (bytes : Bytes) :
    encodeChars bytes = (groups bytes).map symbol ++ List.replicate (missing bytes) '=' := by
  fun_induction groups bytes with
  | case1 a b c rest n ih => simp [encodeChars, missing, ih, n]
  | case2 a b n => simp [encodeChars, missing, n]
  | case3 a => simp [encodeChars, missing, List.replicate]
  | case4 => rfl

theorem packGroups (bytes : Bytes) : pack (groups bytes) = bytes := by
  fun_induction groups bytes with
  | case1 a b c rest n ih =>
    have second := b.toNat_lt
    have third := c.toNat_lt
    have whole : n / 262144 * 262144 + n / 4096 % 64 * 4096 + n / 64 % 64 * 64 + n % 64 = n := by
      omega
    have high : n / 65536 = a.toNat := by omega
    have middle : n / 256 % 256 = b.toNat := by omega
    have low : n % 256 = c.toNat := by omega
    simp only [pack, whole, ih, high, middle, low, UInt8.ofNat_toNat]
  | case2 a b n =>
    have second := b.toNat_lt
    have whole : n / 4096 * 4096 + n / 64 % 64 * 64 + n % 64 = n := by omega
    have high : n / 1024 = a.toNat := by omega
    have low : n / 4 % 256 = b.toNat := by omega
    simp only [pack, whole, high, low, UInt8.ofNat_toNat]
  | case3 a =>
    have whole : (a.toNat * 16 / 64 * 64 + a.toNat * 16 % 64) / 16 = a.toNat := by omega
    simp only [pack, whole, UInt8.ofNat_toNat]
  | case4 => rfl

theorem groupsBound (bytes : Bytes) : ∀ v ∈ groups bytes, v < 64 := by
  fun_induction groups bytes with
  | case1 a b c rest n ih =>
    have first := a.toNat_lt
    have second := b.toNat_lt
    have third := c.toNat_lt
    simp only [List.forall_mem_cons]
    refine ⟨?_,?_,?_,?_,ih⟩ <;> omega
  | case2 a b n =>
    have first := a.toNat_lt
    have second := b.toNat_lt
    simp only [List.forall_mem_cons]
    refine ⟨?_,?_,?_,nofun⟩ <;> omega
  | case3 a =>
    have first := a.toNat_lt
    simp only [List.forall_mem_cons]
    refine ⟨?_,?_,nofun⟩ <;> omega
  | case4 => nofun

-- The paddings fill up the last four, and stand in its second half.
theorem groupsWhole (bytes : Bytes) :
    ((groups bytes).length + missing bytes) % 4 = 0 ∧ missing bytes ≤ 2 := by
  fun_induction groups bytes with
  | case1 a b c rest n ih =>
    simp only [List.length_cons, missing]
    omega
  | case2 | case3 | case4 => simp [missing]

theorem spareFour (count v : Nat) : spareBits (count + 4) v = spareBits count v := by
  simp [spareBits]

theorem groupsSpare (bytes : Bytes) :
    ∀ v ∈ (groups bytes).getLast?, spareBits (groups bytes).length v = 0 := by
  fun_induction groups bytes with
  | case1 a b c rest n ih =>
    cases more : groups rest with
    | nil =>
      intro v last
      simp [spareBits]
    | cons w ws =>
      rw [more] at ih
      simpa only [List.getLast?_cons_cons, List.length_cons, spareFour] using ih
  | case2 a b n =>
    rintro v ⟨⟩
    simp [spareBits]
    omega
  | case3 a =>
    rintro v ⟨⟩
    simp [spareBits]
  | case4 => nofun

theorem symbolRead {v : Nat} (small : v < 64) :
    String.utf8EncodeChar (symbol v) = [symbolByte v] ∧ symbolByte v ≠ padding ∧
      symbolValue? (symbolByte v) = some v := by
  revert v
  decide

theorem symbolsEncoded {values : List Nat} (small : ∀ v ∈ values, v < 64) :
    (values.map symbol).flatMap String.utf8EncodeChar = values.map symbolByte := by
  induction values with
  | nil => rfl
  | cons v values ih =>
    rw [List.map_cons, List.flatMap_cons, (symbolRead (small v List.mem_cons_self)).1,
      ih fun w member => small w (List.mem_cons_of_mem v member)]
    rfl

theorem paddingsEncoded (count : Nat) :
    (List.replicate count '=').flatMap String.utf8EncodeChar = List.replicate count padding := by
  induction count with
  | zero => rfl
  | succ count ih =>
    rw [List.replicate_succ, List.flatMap_cons, ih]
    rfl

theorem encodedBytes (bytes : Bytes) :
    (encode bytes).toUTF8.toList =
      (groups bytes).map symbolByte ++ List.replicate (missing bytes) padding := by
  change Utf8.encode (encode bytes) = _
  rw [Utf8.encodeChars, encode, String.toList_ofList, encodeGroups, List.flatMap_append,
    symbolsEncoded (groupsBound bytes), paddingsEncoded]

def collected (values : List Nat) : List (UInt8 × Nat) := values.map fun v => (symbolByte v,v)

theorem runSymbols {scan : Scan} {position : Nat} {values : List Nat} (rest : Bytes)
    (fresh : scan.padded = none) (small : ∀ v ∈ values, v < 64) :
    scan.run position (values.map symbolByte ++ rest) =
      Scan.run { scan with symbols := (collected values).reverse ++ scan.symbols }
        (position + values.length) rest := by
  induction values generalizing scan position with
  | nil => rfl
  | cons v values ih =>
    obtain ⟨_,plain,value⟩ := symbolRead (small v List.mem_cons_self)
    have step : scan.step position (symbolByte v) =
        .ok { scan with symbols := (symbolByte v,v) :: scan.symbols } := by
      simp only [Scan.step, if_neg plain, fresh, value]
      rfl
    have later := fun w member => small w (List.mem_cons_of_mem v member)
    rw [List.map_cons, List.cons_append, Scan.run, step]
    refine (@ih { scan with symbols := (symbolByte v,v) :: scan.symbols } _ fresh later).trans ?_
    simp [collected, Nat.add_assoc, Nat.add_comm 1]

theorem runPaddings {scan : Scan} {position count : Nat} (fresh : scan.padded = none)
    (few : count ≤ 2) (whole : (position + count) % 4 = 0) :
    ∃ padded, scan.run position (List.replicate count padding) =
      .ok { scan with padded := padded, paddings := scan.paddings + count } := by
  obtain rfl | rfl | rfl : count = 0 ∨ count = 1 ∨ count = 2 := by omega
  · exact ⟨scan.padded,rfl⟩
  · have half : ¬ position % 4 < 2 := by omega
    exact ⟨some position,by simp [Scan.run, Scan.step, half, fresh]; rfl⟩
  · have half : ¬ position % 4 < 2 := by omega
    have next : ¬ (position + 1) % 4 < 2 := by omega
    exact ⟨some position,by simp [Scan.run, Scan.step, half, next, fresh]; rfl⟩

theorem runEncoded (bytes : Bytes) :
    ∃ padded, Scan.run {} 0 (encode bytes).toUTF8.toList =
      .ok ⟨(collected (groups bytes)).reverse,padded,missing bytes⟩ := by
  obtain ⟨whole,few⟩ := groupsWhole bytes
  have symbols := @runSymbols {} 0 (groups bytes) (List.replicate (missing bytes) padding) rfl
    (groupsBound bytes)
  obtain ⟨padded,ended⟩ := @runPaddings { symbols := (collected (groups bytes)).reverse }
    (groups bytes).length (missing bytes) rfl few whole
  simp only [List.append_nil, Nat.zero_add] at symbols ended
  exact ⟨padded,by rw [encodedBytes, symbols, ended]⟩

theorem collectedValues (values : List Nat) :
    (collected values).reverse.reverse.map Prod.snd = values := by
  rw [List.reverse_reverse, collected, List.map_map]
  exact List.map_id values

theorem collectedLast {values : List Nat} {b : UInt8} {v : Nat} {before : List (UInt8 × Nat)}
    (ends : (collected values).reverse = (b,v) :: before) : v ∈ values.getLast? := by
  have last : (collected values).getLast? = some (b,v) := by
    rw [← List.head?_reverse, ends]
    rfl
  rw [collected, List.getLast?_map, Option.map_eq_some_iff] at last
  obtain ⟨w,known,same⟩ := last
  cases same
  exact known

theorem decodeEncode (bytes : Bytes) : decode (encode bytes) = .ok bytes := by
  have whole := (groupsWhole bytes).1
  obtain ⟨padded,read⟩ := runEncoded bytes
  have size : (encode bytes).toUTF8.toList.length % 4 ≠ 1 := by
    rw [encodedBytes, List.length_append, List.length_map, List.length_replicate]
    omega
  have count : (collected (groups bytes)).reverse.length = (groups bytes).length := by
    simp [collected]
  unfold decode
  simp only [if_neg size, read, bind, Except.bind, count, whole, collectedValues, packGroups,
    ne_eq, not_true_eq_false, if_false]
  split
  · next b v before ends =>
    have spare := groupsSpare bytes v (collectedLast ends)
    rw [if_neg (not_not_intro spare)]
    rfl
  · rfl

end ScriptDebugger.Base64
