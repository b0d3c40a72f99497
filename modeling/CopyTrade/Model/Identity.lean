import Mathlib.Data.List.Basic
import Mathlib.Tactic.IntervalCases

/-!
# Byte identities and their hexadecimal text

The `byte_id!` types of `decision.rs` are fixed-length byte arrays.  A cloid is kept in the
registry under its text `0x…` and decoded again wherever the signer needs the bytes, so the
round trip `decodePlannedCloid (toHex cloid) = cloid` is what ties the two together.
-/

namespace CopyTrade.Model

/-- `[u8; n]`. -/
def Bytes (n : ℕ) : Type := { bytes : List UInt8 // bytes.length = n }
deriving DecidableEq

namespace Bytes

/-- The array `[byte; n]`. -/
def replicate (n : ℕ) (byte : UInt8) : Bytes n := ⟨List.replicate n byte, List.length_replicate⟩

instance (n : ℕ) : Inhabited (Bytes n) := ⟨replicate n 0⟩

/-- The derived order of a byte array is the lexicographic one. -/
instance (n : ℕ) : Ord (Bytes n) := ⟨fun a b => compare a.1 b.1⟩

instance (n : ℕ) : Std.TransOrd (Bytes n) where
  eq_swap {a b} := by
    have h : compare a.1 b.1 = (compare b.1 a.1).swap := Std.OrientedOrd.eq_swap
    exact h
  isLE_trans {a b c} hab hbc := by
    have h : (compare a.1 c.1).isLE := Std.TransOrd.isLE_trans hab hbc
    exact h

instance (n : ℕ) : Std.LawfulEqOrd (Bytes n) where
  eq_of_compare {_ _} h := Subtype.ext (Std.LawfulEqOrd.eq_of_compare h)

end Bytes

abbrev PlannedCloid := Bytes 16

/-- `ConfigHash`, `RiskPolicyHash`, `DecisionId`, `ProjectionHash` and the plain `[u8; 32]`. -/
abbrev Hash := Bytes 32

/-! The orders of the two identifier types, under names of their own. -/

instance : Std.TransOrd PlannedCloid := Bytes.instTransOrd 16

instance : Std.LawfulEqOrd PlannedCloid := Bytes.instLawfulEqOrd 16

instance : Std.TransOrd Hash := Bytes.instTransOrd 32

instance : Std.LawfulEqOrd Hash := Bytes.instLawfulEqOrd 32

inductive Side
  | buy
  | sell
deriving DecidableEq

/-- SHA-256, a dependency of the repository. -/
class Sha256 where
  digest : List UInt8 → Bytes 32

def prefixDigest (bytes : List UInt8) : Bytes 32 :=
  ⟨(bytes ++ List.replicate 32 0).take 32, by simp⟩

/-- The digit table `HEX`. -/
def hexDigit (nibble : ℕ) : Char := "0123456789abcdef".toList.getD nibble '0'

def hexByte (byte : UInt8) : List Char := [hexDigit (byte.toNat / 16), hexDigit (byte.toNat % 16)]

/-- The digits of a byte array, without a prefix (`hex32`). -/
def hexDigits (bytes : List UInt8) : List Char := bytes.flatMap hexByte

/-- `to_hex`: the digits after the prefix `0x`. -/
def toHex {n : ℕ} (bytes : Bytes n) : String := String.ofList ('0' :: 'x' :: hexDigits bytes.1)

def hex32 (bytes : Hash) : String := String.ofList (hexDigits bytes.1)

/-- A byte of `b'0'..=b'9' | b'a'..=b'f'`. -/
def isLowerHexChar (c : Char) : Bool :=
  ('0' ≤ c && c ≤ '9') || ('a' ≤ c && c ≤ 'f')

def isLowerHex (value : String) : Bool := value.toList.all isLowerHexChar

/-- `value.len() == length` for a text: the length in bytes. -/
def hasByteLength (value : String) (length : ℕ) : Bool := value.utf8ByteSize == length

def validCloid (value : String) : Bool :=
  hasByteLength value 34 && value.toList.take 2 == ['0', 'x'] &&
    (value.toList.drop 2).all isLowerHexChar

def hexValue (c : Char) : Option ℕ :=
  if '0' ≤ c && c ≤ '9' then some (c.toNat - '0'.toNat)
  else if 'a' ≤ c && c ≤ 'f' then some (c.toNat - 'a'.toNat + 10)
  else if 'A' ≤ c && c ≤ 'F' then some (c.toNat - 'A'.toNat + 10)
  else none

/-- `u8::from_str_radix(_, 16)` of two characters, the first of which may be a sign. -/
def parseHexPair (high low : Char) : Option UInt8 :=
  if high = '+' then (hexValue low).map UInt8.ofNat
  else do
    let h ← hexValue high
    let l ← hexValue low
    pure (UInt8.ofNat (16 * h + l))

/-- Reading pairs of digits as bytes (`chunks_exact(2)`). -/
def parseHexPairs : List Char → Option (List UInt8)
  | [] => some []
  | [_] => none
  | high :: low :: rest => do
    let byte ← parseHexPair high low
    let bytes ← parseHexPairs rest
    pure (byte :: bytes)

/-- `strip_prefix("0x")`, or the text itself. -/
def stripHexPrefix : List Char → List Char
  | '0' :: 'x' :: rest => rest
  | text => text

/-- Reading exactly `n` bytes of hexadecimal text. -/
def decodeHex (n : ℕ) (text : List Char) : Option (Bytes n) := do
  let bytes ← parseHexPairs text
  if h : bytes.length = n then some ⟨bytes, h⟩ else none

/-- `decode_planned_cloid`, `parse_cloid` and `decode_cloid` of the signer: the digits after an
optional prefix, read as sixteen bytes. -/
def decodePlannedCloid (value : String) : Option PlannedCloid :=
  decodeHex 16 (stripHexPrefix value.toList)

def decodeHex32 (value : String) : Option Hash := decodeHex 32 value.toList

theorem hexValue_hexDigit : ∀ nibble < 16, hexValue (hexDigit nibble) = some nibble := by decide

theorem isLowerHexChar_hexDigit : ∀ nibble < 16, isLowerHexChar (hexDigit nibble) = true := by
  decide

theorem hexDigit_ne_plus : ∀ nibble < 16, hexDigit nibble ≠ '+' := by decide

/-- Reading back the two digits of a byte gives the byte. -/
theorem parseHexPair_hexDigit (byte : UInt8) :
    parseHexPair (hexDigit (byte.toNat / 16)) (hexDigit (byte.toNat % 16)) = some byte := by
  have hlt : byte.toNat < 256 := byte.toNat_lt
  have hhigh := hexValue_hexDigit (byte.toNat / 16) (by omega)
  have hlow := hexValue_hexDigit (byte.toNat % 16) (by omega)
  have hbyte : UInt8.ofNat (16 * (byte.toNat / 16) + byte.toNat % 16) = byte := by
    rw [Nat.div_add_mod]
    exact UInt8.ofNat_toNat
  rw [parseHexPair, if_neg (hexDigit_ne_plus _ (by omega)), hhigh, hlow]
  simp only [Option.bind_eq_bind, Option.bind_some, hbyte]
  rfl

theorem hexDigits_cons (byte : UInt8) (bytes : List UInt8) :
    hexDigits (byte :: bytes) =
      hexDigit (byte.toNat / 16) :: hexDigit (byte.toNat % 16) :: hexDigits bytes := rfl

/-- Reading back the digits of a byte array gives the array. -/
theorem parseHexPairs_hexDigits (bytes : List UInt8) :
    parseHexPairs (hexDigits bytes) = some bytes := by
  induction bytes with
  | nil => rfl
  | cons byte bytes ih =>
    rw [hexDigits_cons, parseHexPairs, parseHexPair_hexDigit, ih]
    rfl

theorem decodeHex_hexDigits {n : ℕ} (bytes : Bytes n) :
    decodeHex n (hexDigits bytes.1) = some bytes := by
  simp only [decodeHex, parseHexPairs_hexDigits, Option.bind_eq_bind, Option.bind_some, bytes.2,
    dite_true]
  rfl

theorem decodePlannedCloid_toHex (cloid : PlannedCloid) :
    decodePlannedCloid (toHex cloid) = some cloid := by
  rw [decodePlannedCloid, toHex, String.toList_ofList]
  exact decodeHex_hexDigits cloid

theorem decodeHex32_hex32 (hash : Hash) : decodeHex32 (hex32 hash) = some hash := by
  rw [decodeHex32, hex32, String.toList_ofList]
  exact decodeHex_hexDigits hash

theorem hex32_inj {a b : Hash} : hex32 a = hex32 b ↔ a = b := by
  refine ⟨fun h => ?_, fun h => h ▸ rfl⟩
  have hdecode : decodeHex32 (hex32 a) = decodeHex32 (hex32 b) := by rw [h]
  rwa [decodeHex32_hex32, decodeHex32_hex32, Option.some.injEq] at hdecode

/-- A text of one-byte characters has as many bytes as characters. -/
theorem utf8ByteSize_ofList {text : List Char} (h : ∀ c ∈ text, c.utf8Size = 1) :
    (String.ofList text).utf8ByteSize = text.length := by
  induction text with
  | nil => rfl
  | cons c text ih =>
    rw [List.forall_mem_cons] at h
    rw [String.ofList_cons, String.utf8ByteSize_append, String.utf8ByteSize_singleton, h.1, ih h.2,
      List.length_cons, Nat.add_comm]

theorem exists_nibble_of_mem_hexDigits {bytes : List UInt8} {c : Char} (h : c ∈ hexDigits bytes) :
    ∃ nibble < 16, c = hexDigit nibble := by
  obtain ⟨byte, -, hc⟩ := List.mem_flatMap.mp h
  have hlt : byte.toNat < 256 := byte.toNat_lt
  rcases List.mem_cons.mp hc with rfl | hc
  · exact ⟨byte.toNat / 16, by omega, rfl⟩
  · exact ⟨byte.toNat % 16, by omega, List.mem_singleton.mp hc⟩

theorem length_hexDigits (bytes : List UInt8) : (hexDigits bytes).length = 2 * bytes.length := by
  induction bytes with
  | nil => rfl
  | cons byte bytes ih =>
    rw [hexDigits_cons, List.length_cons, List.length_cons, List.length_cons, ih]
    omega

/-- The text of a hash is 64 bytes of lower-case digits. -/
theorem hasByteLength_hex32 (hash : Hash) :
    hasByteLength (hex32 hash) 64 = true ∧ isLowerHex (hex32 hash) = true := by
  have hone : ∀ nibble < 16, (hexDigit nibble).utf8Size = 1 := by decide
  unfold hasByteLength isLowerHex hex32
  constructor
  · rw [utf8ByteSize_ofList, length_hexDigits, hash.2]
    · rfl
    · intro c hc
      obtain ⟨nibble, hnibble, rfl⟩ := exists_nibble_of_mem_hexDigits hc
      exact hone nibble hnibble
  · rw [String.toList_ofList, List.all_eq_true]
    intro c hc
    obtain ⟨nibble, hnibble, rfl⟩ := exists_nibble_of_mem_hexDigits hc
    exact isLowerHexChar_hexDigit nibble hnibble

/-- The digits that are read back are those of the byte. -/
theorem hexByte_of_parseHexPair : ∀ high < 16, ∀ low < 16,
    (parseHexPair (hexDigit high) (hexDigit low)).map hexByte =
      some [hexDigit high, hexDigit low] := by
  decide

theorem exists_hexDigit {c : Char} (h : isLowerHexChar c = true) :
    ∃ nibble < 16, hexDigit nibble = c := by
  have hchar : c = Char.ofNat c.toNat := (Char.ofNat_toNat c).symm
  have hrange : (48 ≤ c.toNat ∧ c.toNat ≤ 57) ∨ (97 ≤ c.toNat ∧ c.toNat ≤ 102) := by
    unfold isLowerHexChar at h
    simp only [Bool.or_eq_true, Bool.and_eq_true, decide_eq_true_eq, Char.le_def,
      UInt32.le_iff_toNat_le] at h
    exact h
  rw [hchar]
  generalize c.toNat = code at hrange
  rcases hrange with ⟨hlow, hhigh⟩ | ⟨hlow, hhigh⟩
  · refine ⟨code - 48, by omega, ?_⟩
    interval_cases code <;> rfl
  · refine ⟨code - 87, by omega, ?_⟩
    interval_cases code <;> rfl

/-- Lower-case digits that can be read are the digits of the bytes read. -/
theorem hexDigits_of_parseHexPairs {text : List Char} {bytes : List UInt8}
    (hlower : text.all isLowerHexChar = true) (h : parseHexPairs text = some bytes) :
    hexDigits bytes = text := by
  induction text using parseHexPairs.induct generalizing bytes with
  | case1 =>
    cases h
    rfl
  | case2 c => cases h
  | case3 high low rest ih =>
    rw [List.all_cons, List.all_cons, Bool.and_eq_true, Bool.and_eq_true] at hlower
    obtain ⟨hhigh, hlow, hrest⟩ := hlower
    obtain ⟨m, hm, rfl⟩ := exists_hexDigit hhigh
    obtain ⟨n, hn, rfl⟩ := exists_hexDigit hlow
    rw [parseHexPairs] at h
    obtain ⟨byte, hbyte, h⟩ := Option.bind_eq_some_iff.mp h
    obtain ⟨more, hmore, h⟩ := Option.bind_eq_some_iff.mp h
    cases h
    have hdigits := hexByte_of_parseHexPair m hm n hn
    rw [hbyte, Option.map_some, Option.some.injEq] at hdigits
    rw [hexDigits, List.flatMap_cons, hdigits, ← hexDigits, ih hrest hmore]
    rfl

/-- A valid cloid text is the text of the cloid it is read as. -/
theorem toHex_of_decodePlannedCloid {value : String} {cloid : PlannedCloid}
    (hvalid : validCloid value = true) (h : decodePlannedCloid value = some cloid) :
    toHex cloid = value := by
  unfold validCloid at hvalid
  rw [Bool.and_eq_true, Bool.and_eq_true, beq_iff_eq] at hvalid
  obtain ⟨⟨-, hinitial⟩, hlower⟩ := hvalid
  have htext : value.toList = '0' :: 'x' :: value.toList.drop 2 := by
    rw [← List.take_append_drop 2 value.toList, hinitial]
    rfl
  unfold decodePlannedCloid at h
  rw [htext, stripHexPrefix] at h
  obtain ⟨bytes, hbytes, h⟩ := Option.bind_eq_some_iff.mp h
  split at h
  · cases h
    apply String.toList_injective
    show (String.ofList ('0' :: 'x' :: hexDigits bytes)).toList = value.toList
    rw [String.toList_ofList, hexDigits_of_parseHexPairs hlower hbytes, ← htext]
  · cases h

end CopyTrade.Model
