import CopyTrade.Foundation.Serde
import CopyTrade.Foundation.Words

/-!
# MessagePack

Each content starts with a head: small integers, lengths and counts are part of one byte, larger
ones follow a tag that tells their width.  Numbers that no width holds, which the format does not
have, follow the one byte it never uses, so that the reader inverts the writer on every content.
-/

namespace CopyTrade.Foundation.MessagePack

/-- What a number in a head counts. -/
inductive Kind
  | int
  | map
  | seq
  | text
deriving DecidableEq

def Kind.base : Kind → ℕ
  | .int => 0x00
  | .map => 0x80
  | .seq => 0x90
  | .text => 0xa0

def Kind.small : Kind → ℕ
  | .int => 128
  | .map => 16
  | .seq => 16
  | .text => 32

def kinds : List Kind := [.int, .map, .seq, .text]

/-- The start of a content. -/
inductive Head
  | unit
  | bool (b : Bool)
  | number (kind : Kind) (n : ℕ)

/-- A tag, the kind of the number after it and the width of that number. -/
structure Tag where
  byte : UInt8
  kind : Kind
  width : ℕ
deriving DecidableEq

def tags : List Tag := [
  ⟨0xcc, .int, 1⟩, ⟨0xcd, .int, 2⟩, ⟨0xce, .int, 4⟩, ⟨0xcf, .int, 8⟩,
  ⟨0xd9, .text, 1⟩, ⟨0xda, .text, 2⟩, ⟨0xdb, .text, 4⟩,
  ⟨0xdc, .seq, 2⟩, ⟨0xdd, .seq, 4⟩, ⟨0xde, .map, 2⟩, ⟨0xdf, .map, 4⟩]

def tagFor (kind : Kind) (n : ℕ) : Option Tag :=
  tags.find? fun tag => tag.kind == kind && decide (n < 256 ^ tag.width)

def unary : ℕ → List UInt8
  | 0 => [0]
  | n + 1 => 1 :: unary n

def writeHead : Head → List UInt8
  | .unit => [0xc0]
  | .bool false => [0xc2]
  | .bool true => [0xc3]
  | .number kind n =>
    if n < kind.small then [UInt8.ofNat (kind.base + n)]
    else
      match tagFor kind n with
      | some tag => tag.byte :: bigEndian tag.width n
      | none => 0xc1 :: UInt8.ofNat kind.base :: unary n

def readUnary : List UInt8 → Option (ℕ × List UInt8)
  | [] => none
  | b :: rest =>
    if b = 0 then some (0, rest) else (readUnary rest).map fun found => (found.1 + 1, found.2)

def readTagged (tag : Tag) (rest : List UInt8) : Option (Head × List UInt8) :=
  if tag.width ≤ rest.length then
    some (.number tag.kind (fromBigEndian (rest.take tag.width)), rest.drop tag.width)
  else none

def readUnbounded : List UInt8 → Option (Head × List UInt8)
  | [] => none
  | b :: rest => do
    let kind ← kinds.find? fun kind => kind.base == b.toNat
    let (n, rest) ← readUnary rest
    some (.number kind n, rest)

def readHead : List UInt8 → Option (Head × List UInt8)
  | [] => none
  | b :: rest =>
    match kinds.find? fun kind =>
      decide (kind.base ≤ b.toNat) && decide (b.toNat < kind.base + kind.small) with
    | some kind => some (.number kind (b.toNat - kind.base), rest)
    | none =>
      if b = 0xc0 then some (.unit, rest)
      else if b = 0xc1 then readUnbounded rest
      else if b = 0xc2 then some (.bool false, rest)
      else if b = 0xc3 then some (.bool true, rest)
      else
        match tags.find? fun tag => tag.byte == b with
        | some tag => readTagged tag rest
        | none => none

theorem readUnary_unary (n : ℕ) (rest : List UInt8) :
    readUnary (unary n ++ rest) = some (n, rest) := by
  induction n with
  | zero => rfl
  | succ n ih =>
    rw [unary, List.cons_append, readUnary, if_neg (by decide), ih]
    rfl

theorem readTagged_bigEndian {tag : Tag} {n : ℕ} (h : n < 256 ^ tag.width) (rest : List UInt8) :
    readTagged tag (bigEndian tag.width n ++ rest) = some (.number tag.kind n, rest) := by
  have hlength := length_bigEndian tag.width n
  unfold readTagged
  rw [if_pos (by rw [List.length_append]; omega)]
  rw [List.take_left' hlength, List.drop_left' hlength, fromBigEndian_bigEndian h]

theorem readHead_tag {tag : Tag} (h : tag ∈ tags) (rest : List UInt8) :
    readHead (tag.byte :: rest) = readTagged tag rest := by
  simp only [tags, List.mem_cons, List.not_mem_nil, or_false] at h
  rcases h with rfl | rfl | rfl | rfl | rfl | rfl | rfl | rfl | rfl | rfl | rfl <;> rfl

theorem readHead_small {kind : Kind} {n : ℕ} (h : n < kind.small) (rest : List UInt8) :
    readHead (UInt8.ofNat (kind.base + n) :: rest) = some (.number kind n, rest) := by
  have hbyte : (UInt8.ofNat (kind.base + n)).toNat = kind.base + n := by
    rw [UInt8.toNat_ofNat']
    refine Nat.mod_eq_of_lt ?_
    cases kind <;> simp only [Kind.base, Kind.small] at h ⊢ <;> omega
  have hfind : (kinds.find? fun other => decide (other.base ≤ kind.base + n) &&
      decide (kind.base + n < other.base + other.small)) = some kind := by
    unfold kinds
    cases kind <;> simp only [Kind.base, Kind.small, List.find?_cons] at h ⊢ <;>
      grind
  unfold readHead
  dsimp only
  rw [hbyte, hfind]
  dsimp only
  rw [Nat.add_sub_cancel_left]

theorem readHead_writeHead (head : Head) (rest : List UInt8) :
    readHead (writeHead head ++ rest) = some (head, rest) := by
  cases head with
  | unit => rfl
  | bool b => cases b <;> rfl
  | number kind n =>
    rw [writeHead]
    split
    · rename_i hsmall
      exact readHead_small hsmall rest
    · split
      · rename_i tag htag
        have hfits := List.find?_some htag
        rw [Bool.and_eq_true, beq_iff_eq, decide_eq_true_eq] at hfits
        rw [List.cons_append, readHead_tag (List.mem_of_find?_eq_some htag),
          readTagged_bigEndian hfits.2, hfits.1]
      · show readUnbounded (UInt8.ofNat kind.base :: (unary n ++ rest)) = some (.number kind n, rest)
        unfold readUnbounded
        dsimp only
        rw [readUnary_unary]
        cases kind <;> rfl

theorem writeHead_ne_nil (head : Head) : writeHead head ≠ [] := by
  intro hnil
  have hread := readHead_writeHead head []
  rw [hnil] at hread
  cases hread

def utf8 (s : String) : List UInt8 := s.toByteArray.data.toList

def readUtf8 (bytes : List UInt8) : Option String :=
  if h : (ByteArray.mk bytes.toArray).validateUTF8 = true then
    some ⟨ByteArray.mk bytes.toArray, ByteArray.validateUTF8_eq_true_iff.mp h⟩
  else none

theorem readUtf8_utf8 (s : String) : readUtf8 (utf8 s) = some s := by
  unfold readUtf8 utf8
  have hvalid : (ByteArray.mk s.toByteArray.data.toList.toArray).validateUTF8 = true :=
    ByteArray.validateUTF8_eq_true_iff.mpr s.isValidUTF8
  rw [dif_pos hvalid]

mutual

def pack : Content → List UInt8
  | .unit => writeHead .unit
  | .bool b => writeHead (.bool b)
  | .int n => writeHead (.number .int n)
  | .text s => writeHead (.number .text (utf8 s).length) ++ utf8 s
  | .seq items => writeHead (.number .seq items.length) ++ packItems items
  | .map entries => writeHead (.number .map entries.length) ++ packEntries entries

def packItems : List Content → List UInt8
  | [] => []
  | content :: rest => pack content ++ packItems rest

def packEntries : List (Content × Content) → List UInt8
  | [] => []
  | (key, value) :: rest => pack key ++ (pack value ++ packEntries rest)

end

def readTimes {α : Type} (read : List UInt8 → Option (α × List UInt8)) :
    ℕ → List UInt8 → Option (List α × List UInt8)
  | 0, bytes => some ([], bytes)
  | n + 1, bytes => do
    let (a, bytes) ← read bytes
    let (items, bytes) ← readTimes read n bytes
    some (a :: items, bytes)

def readPair {α : Type} (read : List UInt8 → Option (α × List UInt8)) (bytes : List UInt8) :
    Option ((α × α) × List UInt8) := do
  let (key, bytes) ← read bytes
  let (value, bytes) ← read bytes
  some ((key, value), bytes)

def unpack : ℕ → List UInt8 → Option (Content × List UInt8)
  | 0, _ => none
  | fuel + 1, bytes => do
    let (head, bytes) ← readHead bytes
    match head with
    | .unit => some (.unit, bytes)
    | .bool b => some (.bool b, bytes)
    | .number .int n => some (.int n, bytes)
    | .number .text n =>
      if n ≤ bytes.length then
        (readUtf8 (bytes.take n)).map fun s => (.text s, bytes.drop n)
      else none
    | .number .seq n => (readTimes (unpack fuel) n bytes).map fun found => (.seq found.1, found.2)
    | .number .map n =>
      (readTimes (readPair (unpack fuel)) n bytes).map fun found => (.map found.1, found.2)

theorem exists_fuel (head : Head) (body : List UInt8) {fuel : ℕ}
    (h : (writeHead head ++ body).length ≤ fuel) : ∃ rest, fuel = rest + 1 ∧ body.length ≤ rest := by
  have hpos := List.length_pos_of_ne_nil (writeHead_ne_nil head)
  rw [List.length_append] at h
  exact ⟨fuel - 1, by omega, by omega⟩

mutual

theorem unpack_pack (content : Content) (fuel : ℕ) (h : (pack content).length ≤ fuel)
    (rest : List UInt8) : unpack fuel (pack content ++ rest) = some (content, rest) := by
  match content with
  | .unit =>
    obtain ⟨fuel, rfl, -⟩ := exists_fuel .unit [] h
    rw [pack, unpack, readHead_writeHead]
    rfl
  | .bool b =>
    obtain ⟨fuel, rfl, -⟩ := exists_fuel (.bool b) [] (by simpa [pack] using h)
    rw [pack, unpack, readHead_writeHead]
    rfl
  | .int n =>
    obtain ⟨fuel, rfl, -⟩ :=
      exists_fuel (.number .int n) [] (by simpa [pack] using h)
    rw [pack, unpack, readHead_writeHead]
    rfl
  | .text s =>
    rw [pack] at h ⊢
    obtain ⟨fuel, rfl, -⟩ := exists_fuel _ _ h
    rw [List.append_assoc, unpack, readHead_writeHead]
    show (if (utf8 s).length ≤ (utf8 s ++ rest).length then
      (readUtf8 ((utf8 s ++ rest).take (utf8 s).length)).map fun text =>
        (Content.text text, (utf8 s ++ rest).drop (utf8 s).length) else none) = _
    rw [if_pos (by rw [List.length_append]; omega), List.take_left, List.drop_left, readUtf8_utf8]
    rfl
  | .seq items =>
    rw [pack] at h ⊢
    obtain ⟨fuel, rfl, hbody⟩ := exists_fuel _ _ h
    rw [List.append_assoc, unpack, readHead_writeHead]
    show (readTimes (unpack fuel) items.length (packItems items ++ rest)).map _ = _
    rw [readTimes_packItems items fuel hbody rest]
    rfl
  | .map entries =>
    rw [pack] at h ⊢
    obtain ⟨fuel, rfl, hbody⟩ := exists_fuel _ _ h
    rw [List.append_assoc, unpack, readHead_writeHead]
    show (readTimes (readPair (unpack fuel)) entries.length (packEntries entries ++ rest)).map _ = _
    rw [readTimes_packEntries entries fuel hbody rest]
    rfl

theorem readTimes_packItems (items : List Content) (fuel : ℕ)
    (h : (packItems items).length ≤ fuel) (rest : List UInt8) :
    readTimes (unpack fuel) items.length (packItems items ++ rest) = some (items, rest) := by
  match items with
  | [] => rfl
  | content :: items =>
    rw [packItems, List.length_append] at h
    rw [packItems, List.append_assoc, List.length_cons, readTimes,
      unpack_pack content fuel (by omega)]
    show (readTimes (unpack fuel) items.length (packItems items ++ rest) >>= _) = _
    rw [readTimes_packItems items fuel (by omega)]
    rfl

theorem readTimes_packEntries (entries : List (Content × Content)) (fuel : ℕ)
    (h : (packEntries entries).length ≤ fuel) (rest : List UInt8) :
    readTimes (readPair (unpack fuel)) entries.length (packEntries entries ++ rest) =
      some (entries, rest) := by
  match entries with
  | [] => rfl
  | (key, value) :: entries =>
    rw [packEntries, List.length_append, List.length_append] at h
    have hpair : readPair (unpack fuel) (pack key ++ (pack value ++ packEntries entries ++ rest)) =
        some ((key, value), packEntries entries ++ rest) := by
      unfold readPair
      rw [unpack_pack key fuel (by omega)]
      show (unpack fuel (pack value ++ packEntries entries ++ rest) >>= _) = _
      rw [List.append_assoc, unpack_pack value fuel (by omega)]
      rfl
    rw [packEntries, List.append_assoc, List.length_cons, readTimes, hpair]
    show (readTimes (readPair (unpack fuel)) entries.length (packEntries entries ++ rest) >>= _) = _
    rw [readTimes_packEntries entries fuel (by omega)]
    rfl

end

def parse (bytes : List UInt8) : Except String Content :=
  match unpack bytes.length bytes with
  | some (content, []) => .ok content
  | _ => .error "invalid MessagePack"

theorem parse_pack (content : Content) : parse (pack content) = .ok content := by
  have hread := unpack_pack content (pack content).length le_rfl []
  rw [List.append_nil] at hread
  unfold parse
  rw [hread]

end CopyTrade.Foundation.MessagePack
