import Mathlib.Data.List.Basic
import Mathlib.Tactic.Positivity
import Mathlib.Tactic.Ring

/-!
# Machine words and texts

Times, nonces and sequence numbers are natural numbers; the operations below are the ones
that see the width: saturating and checked sums, and the big-endian bytes of a word.  Texts
are turned into bytes for hashing and quoted as a derived `Debug` prints them.
-/

namespace CopyTrade.Foundation

/-- `u64::MAX`. -/
def maxU64 : ℕ := 2 ^ 64 - 1

/-- `u32::MAX`. -/
def maxU32 : ℕ := 2 ^ 32 - 1

/-- `saturating_add` on `u64`. -/
def saturatingAdd (a b : ℕ) : ℕ := min (a + b) maxU64

/-- `checked_add` on `u64`. -/
def checkedAddU64 (a b : ℕ) : Option ℕ := if a + b ≤ maxU64 then some (a + b) else none

theorem checkedAddU64_eq_some_iff {a b c : ℕ} :
    checkedAddU64 a b = some c ↔ a + b = c ∧ c ≤ maxU64 := by
  unfold checkedAddU64
  split
  · rename_i hle
    rw [Option.some.injEq]
    constructor
    · rintro rfl
      exact ⟨rfl, hle⟩
    · exact fun h => h.1
  · rename_i hlt
    constructor
    · intro h
      cases h
    · rintro ⟨rfl, hle⟩
      exact absurd hle hlt

/-- `checked_mul` on `u64`. -/
def checkedMulU64 (a b : ℕ) : Option ℕ := if a * b ≤ maxU64 then some (a * b) else none

theorem checkedMulU64_eq_some_iff {a b c : ℕ} :
    checkedMulU64 a b = some c ↔ a * b = c ∧ c ≤ maxU64 := by
  unfold checkedMulU64
  split
  · rename_i hle
    rw [Option.some.injEq]
    constructor
    · rintro rfl
      exact ⟨rfl, hle⟩
    · exact fun h => h.1
  · rename_i hlt
    constructor
    · intro h
      cases h
    · rintro ⟨rfl, hle⟩
      exact absurd hle hlt

/-- `checked_sub` on unsigned integers. -/
def checkedSubNat (a b : ℕ) : Option ℕ := if b ≤ a then some (a - b) else none

theorem checkedSubNat_eq_some_iff {a b c : ℕ} : checkedSubNat a b = some c ↔ a = b + c := by
  unfold checkedSubNat
  split
  · rw [Option.some.injEq]
    omega
  · rename_i hlt
    constructor
    · intro h
      cases h
    · omega

/-- `checked_div` on unsigned integers. -/
def checkedDivNat (a b : ℕ) : Option ℕ := if b = 0 then none else some (a / b)

theorem checkedDivNat_eq_some_iff {a b c : ℕ} :
    checkedDivNat a b = some c ↔ b ≠ 0 ∧ a / b = c := by
  unfold checkedDivNat
  split <;> simp [*]

/-- The `n` low bytes of a word, most significant first. -/
def bigEndian : ℕ → ℕ → List UInt8
  | 0, _ => []
  | n + 1, word => UInt8.ofNat (word / 256 ^ n) :: bigEndian n (word % 256 ^ n)

def fromBigEndian (bytes : List UInt8) : ℕ := bytes.foldl (fun word b => 256 * word + b.toNat) 0

theorem length_bigEndian (n word : ℕ) : (bigEndian n word).length = n := by
  induction n generalizing word with
  | zero => rfl
  | succ n ih => rw [bigEndian, List.length_cons, ih]

theorem foldl_bigEndian {n word : ℕ} (h : word < 256 ^ n) (start : ℕ) :
    (bigEndian n word).foldl (fun word b => 256 * word + b.toNat) start =
      256 ^ n * start + word := by
  induction n generalizing word start with
  | zero =>
    have hzero : word = 0 := by simpa using h
    rw [hzero, bigEndian, List.foldl_nil, pow_zero, one_mul, add_zero]
  | succ n ih =>
    have hpos : 0 < 256 ^ n := by positivity
    have hhigh : word / 256 ^ n < 256 := by
      rw [Nat.div_lt_iff_lt_mul hpos, ← pow_succ']
      exact h
    have hbyte : (UInt8.ofNat (word / 256 ^ n)).toNat = word / 256 ^ n := by
      rw [UInt8.toNat_ofNat']
      exact Nat.mod_eq_of_lt hhigh
    have hsplit := Nat.div_add_mod word (256 ^ n)
    rw [bigEndian, List.foldl_cons, ih (Nat.mod_lt _ hpos), hbyte, pow_succ]
    calc 256 ^ n * (256 * start + word / 256 ^ n) + word % 256 ^ n
        = 256 ^ n * 256 * start + (256 ^ n * (word / 256 ^ n) + word % 256 ^ n) := by ring
      _ = 256 ^ n * 256 * start + word := by rw [hsplit]

theorem fromBigEndian_bigEndian {n word : ℕ} (h : word < 256 ^ n) :
    fromBigEndian (bigEndian n word) = word := by
  unfold fromBigEndian
  rw [foldl_bigEndian h, mul_zero, zero_add]

theorem bigEndian_injOn {n a b : ℕ} (ha : a < 256 ^ n) (hb : b < 256 ^ n)
    (h : bigEndian n a = bigEndian n b) : a = b := by
  rw [← fromBigEndian_bigEndian ha, h, fromBigEndian_bigEndian hb]

theorem foldl_eq_add_fromBigEndian (bytes : List UInt8) (start : ℕ) :
    bytes.foldl (fun word b => 256 * word + b.toNat) start =
      256 ^ bytes.length * start + fromBigEndian bytes := by
  unfold fromBigEndian
  induction bytes generalizing start with
  | nil => simp
  | cons b rest ih =>
    rw [List.foldl_cons, List.foldl_cons, ih, ih (256 * 0 + b.toNat), List.length_cons, pow_succ]
    ring

theorem fromBigEndian_cons (b : UInt8) (rest : List UInt8) :
    fromBigEndian (b :: rest) = 256 ^ rest.length * b.toNat + fromBigEndian rest := by
  have h := foldl_eq_add_fromBigEndian rest b.toNat
  unfold fromBigEndian at h ⊢
  rw [List.foldl_cons, mul_zero, zero_add, h]

theorem fromBigEndian_lt (bytes : List UInt8) : fromBigEndian bytes < 256 ^ bytes.length := by
  induction bytes with
  | nil => simp [fromBigEndian]
  | cons b rest ih =>
    have hbyte : b.toNat + 1 ≤ 256 := b.toNat_lt
    rw [fromBigEndian_cons, List.length_cons, pow_succ]
    calc 256 ^ rest.length * b.toNat + fromBigEndian rest
        < 256 ^ rest.length * b.toNat + 256 ^ rest.length := by omega
      _ = 256 ^ rest.length * (b.toNat + 1) := by ring
      _ ≤ 256 ^ rest.length * 256 := Nat.mul_le_mul_left _ hbyte

theorem bigEndian_fromBigEndian (bytes : List UInt8) :
    bigEndian bytes.length (fromBigEndian bytes) = bytes := by
  induction bytes with
  | nil => rfl
  | cons b rest ih =>
    have hpos : 0 < 256 ^ rest.length := by positivity
    have hrest := fromBigEndian_lt rest
    rw [List.length_cons, bigEndian, fromBigEndian_cons, Nat.mul_add_div hpos,
      Nat.div_eq_of_lt hrest, Nat.mul_add_mod, Nat.mod_eq_of_lt hrest, ih, add_zero]
    simp

/-- The bytes of a signed word in two's complement, most significant first. -/
def signedBigEndian (n : ℕ) (word : ℤ) : List UInt8 := bigEndian n (word % 256 ^ n).toNat

theorem length_signedBigEndian (n : ℕ) (word : ℤ) : (signedBigEndian n word).length = n :=
  length_bigEndian n _

theorem signedBigEndian_injOn {n : ℕ} {a b : ℤ} (ha : -256 ^ n ≤ 2 * a ∧ 2 * a < 256 ^ n)
    (hb : -256 ^ n ≤ 2 * b ∧ 2 * b < 256 ^ n) (h : signedBigEndian n a = signedBigEndian n b) :
    a = b := by
  have hpos : (0 : ℤ) < 256 ^ n := by positivity
  have hword : ∀ word : ℤ, 0 ≤ word % 256 ^ n ∧ word % 256 ^ n < 256 ^ n := fun word =>
    ⟨Int.emod_nonneg word hpos.ne', Int.emod_lt_of_pos word hpos⟩
  have hlt : ∀ word : ℤ, (word % 256 ^ n).toNat < 256 ^ n := fun word => by
    rw [Int.toNat_lt (hword word).1]
    exact_mod_cast (hword word).2
  have hmod : a % 256 ^ n = b % 256 ^ n := by
    rw [← Int.toNat_of_nonneg (hword a).1, bigEndian_injOn (hlt a) (hlt b) h,
      Int.toNat_of_nonneg (hword b).1]
  obtain ⟨k, hk⟩ : ∃ k, b - a = 256 ^ n * k := by
    refine ⟨b / 256 ^ n - a / 256 ^ n, ?_⟩
    have hleft := Int.mul_ediv_add_emod a (256 ^ n)
    have hright := Int.mul_ediv_add_emod b (256 ^ n)
    rw [mul_sub]
    omega
  -- the words differ by less than the width
  have hzero : k = 0 := by
    by_contra hne
    rcases lt_or_gt_of_ne hne with hneg | hgt
    · have : (256 : ℤ) ^ n * k ≤ 256 ^ n * (-1) := mul_le_mul_of_nonneg_left (by omega) hpos.le
      omega
    · have : (256 : ℤ) ^ n * 1 ≤ 256 ^ n * k := mul_le_mul_of_nonneg_left (by omega) hpos.le
      omega
  rw [hzero, mul_zero] at hk
  omega

/-- `as_bytes()` of a text. -/
def textBytes (text : String) : List UInt8 := text.toUTF8.toList

theorem toList_loop (bytes : ByteArray) (i : ℕ) (read : List UInt8) :
    ByteArray.toList.loop bytes i read = read.reverse ++ bytes.data.toList.drop i := by
  fun_induction ByteArray.toList.loop bytes i read with
  | case1 i read hlt ih =>
    have hsize : i < bytes.data.toList.length := by simpa using hlt
    have hbyte : bytes.get! i = bytes.data[i]! := rfl
    rw [ih, List.drop_eq_getElem_cons hsize, List.reverse_cons, List.append_assoc]
    congr 2
    simp [hbyte, getElem!_pos, hlt]
  | case2 i read hge =>
    rw [List.drop_eq_nil_of_le (by simpa using hge), List.append_nil]

theorem textBytes_eq (text : String) : textBytes text = text.toByteArray.data.toList := by
  change ByteArray.toList.loop text.toByteArray 0 [] = _
  rw [toList_loop]
  rfl

theorem textBytes_injective : Function.Injective textBytes := by
  intro a b h
  rw [textBytes_eq, textBytes_eq, Array.toList_inj] at h
  exact String.toByteArray_inj.mp (ByteArray.ext h)

/-- One character of a quoted text; control characters other than these are printed as they
are. -/
def quotedChar (c : Char) : List Char :=
  if c = '"' then ['\\', '"']
  else if c = '\\' then ['\\', '\\']
  else if c = '\n' then ['\\', 'n']
  else if c = '\r' then ['\\', 'r']
  else if c = '\t' then ['\\', 't']
  else [c]

/-- A text as a derived `Debug` prints it. -/
def quoted (text : String) : String :=
  String.ofList ('"' :: text.toList.flatMap quotedChar ++ ['"'])

/-- A variant with one field as a derived `Debug` prints it. -/
def debugVariant (variant field : String) : String := variant ++ "(" ++ field ++ ")"

end CopyTrade.Foundation
