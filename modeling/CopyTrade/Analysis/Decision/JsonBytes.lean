import CopyTrade.Foundation.PrefixCode
import CopyTrade.Model.Core.IdentityHash

/-!
# The canonical bytes tell values apart

The fields of an identity are written as prefix codes: lengths, texts and decimals, the lists and
maps behind their counts, and JSON values behind a tag, up to what the writer does not see of them,
the scale of a decimal and the order of the fields of an object.
-/

namespace CopyTrade.Analysis

open Foundation Model
open Std (ExtTreeMap)

theorem checked_eq_ok_iff {written : Option (List UInt8)} {bytes : List UInt8} :
    Canonical.checked written = .ok bytes ↔ written = some bytes := by
  cases written <;> simp [Canonical.checked]

theorem length_eq_some_iff {n : ℕ} {bytes : List UInt8} :
    Canonical.length n = some bytes ↔ n < 256 ^ 4 ∧ bytes = bigEndian 4 n := by
  have hwidth : (2 : ℕ) ^ 32 = 256 ^ 4 := by norm_num
  unfold Canonical.length
  rw [hwidth]
  split
  · rename_i hlt
    rw [Option.some.injEq, eq_comm, and_iff_right hlt]
  · rename_i hlt
    exact ⟨nofun, fun h => absurd h.1 hlt⟩

theorem string_eq_some_iff {text : String} {bytes : List UInt8} :
    Canonical.string text = some bytes ↔ (textBytes text).length < 256 ^ 4 ∧
      bytes = bigEndian 4 (textBytes text).length ++ textBytes text := by
  unfold Canonical.string
  rw [Option.bind_eq_bind, Option.bind_eq_some_iff]
  constructor
  · rintro ⟨_, hlength, h⟩
    obtain ⟨hlt, rfl⟩ := length_eq_some_iff.mp hlength
    exact ⟨hlt, (Option.some.inj h).symm⟩
  · rintro ⟨hlt, rfl⟩
    exact ⟨_, length_eq_some_iff.mpr ⟨hlt, rfl⟩, rfl⟩

theorem prefixCode_length : PrefixCode (fun n p => Canonical.length n = some p) Eq :=
  fun _ _ _ _ _ _ ha hb => prefixCode_bigEndian 4 (length_eq_some_iff.mp ha)
    (length_eq_some_iff.mp hb)

theorem prefixCode_string : PrefixCode (fun text p => Canonical.string text = some p) Eq :=
  fun _ _ _ _ _ _ ha hb => prefixCode_text 4 (string_eq_some_iff.mp ha) (string_eq_some_iff.mp hb)

theorem prefixCode_u64 : PrefixCode (fun word p => p = Canonical.u64 word) Eq := by
  apply prefixCode_of_length (n := 8)
  · rintro word p rfl
    exact length_bigEndian 8 word.toNat
  · rintro a b p rfl h
    exact UInt64.toNat_inj.mp (bigEndian_injOn a.toNat_lt b.toNat_lt h)

theorem prefixCode_u32 : PrefixCode (fun word p => p = Canonical.u32 word) Eq := by
  apply prefixCode_of_length (n := 4)
  · rintro word p rfl
    exact length_bigEndian 4 word.toNat
  · rintro a b p rfl h
    exact UInt32.toNat_inj.mp (bigEndian_injOn a.toNat_lt b.toNat_lt h)

theorem prefixCode_bytes (n : ℕ) : PrefixCode (fun (bytes : Bytes n) p => p = bytes.1) Eq := by
  apply prefixCode_of_length (n := n)
  · rintro bytes p rfl
    exact bytes.2
  · rintro a b p rfl h
    exact Subtype.ext h

section

variable {α : Type}

theorem writesAll_of_each {write : α → Except IdentityError (List UInt8)} {items : List α}
    {bytes : List UInt8} (h : Canonical.each write items = .ok bytes) :
    WritesAll (fun item p => write item = .ok p) items bytes := by
  induction items generalizing bytes with
  | nil =>
    cases h
    exact .nil
  | cons item rest ih =>
    obtain ⟨head, hhead, h⟩ := of_bind h
    obtain ⟨tail, htail, h⟩ := of_bind h
    cases h
    exact .cons hhead (ih htail)

theorem writesAll_of_items {write : α → Option (List UInt8)} {items : List α}
    {bytes : List UInt8} (h : Canonical.items write items = some bytes) :
    WritesAll (fun item p => write item = some p) items bytes := by
  induction items generalizing bytes with
  | nil =>
    cases h
    exact .nil
  | cons item rest ih =>
    obtain ⟨head, hhead, h⟩ := Option.bind_eq_some_iff.mp h
    obtain ⟨tail, htail, h⟩ := Option.bind_eq_some_iff.mp h
    cases h
    exact .cons hhead (ih htail)

end

/-- Two maps have the same keys, and the same values under them. -/
def SameEntries {β : Type} (same : β → β → Prop) (m n : ExtTreeMap String β) : Prop :=
  ∀ key : String, Option.Rel same m[key]? n[key]?

theorem exists_mem_of_forall₂ {α : Type} {R : α → α → Prop} {as bs : List α}
    (h : List.Forall₂ R as bs) : (∀ a ∈ as, ∃ b ∈ bs, R a b) ∧ ∀ b ∈ bs, ∃ a ∈ as, R a b := by
  induction h with
  | nil => exact ⟨nofun, nofun⟩
  | cons hfirst _ ih =>
    simp only [List.forall_mem_cons, List.exists_mem_cons_iff]
    exact ⟨⟨.inl hfirst, fun a ha => .inr (ih.1 a ha)⟩,
      .inl hfirst, fun b hb => .inr (ih.2 b hb)⟩

theorem sameEntries_of_forall₂ {β : Type} {same : β → β → Prop} {m n : ExtTreeMap String β}
    (h : List.Forall₂ (fun e f => e.1 = f.1 ∧ same e.2 f.2) m.toList n.toList) :
    SameEntries same m n := by
  obtain ⟨hleft, hright⟩ := exists_mem_of_forall₂ h
  intro key
  cases hm : m[key]? with
  | none =>
    cases hn : n[key]? with
    | none => exact .none
    | some value =>
      obtain ⟨entry, hentry, hkey, -⟩ :=
        hright (key, value) (ExtTreeMap.mem_toList_iff_getElem?_eq_some.mpr hn)
      have hfound := ExtTreeMap.mem_toList_iff_getElem?_eq_some.mp hentry
      rw [hkey, hm] at hfound
      cases hfound
  | some value =>
    obtain ⟨⟨key', value'⟩, hentry, rfl, hsame⟩ :=
      hleft (key, value) (ExtTreeMap.mem_toList_iff_getElem?_eq_some.mpr hm)
    rw [ExtTreeMap.mem_toList_iff_getElem?_eq_some.mp hentry]
    exact .some hsame

variable {D : Type} [Decimal D] [DecimalText D] [DecimalNormalize D] [DecimalNormalizeLaws D]

def SameValue (a b : D) : Prop := Decimal.toRat a = Decimal.toRat b

theorem sameValue_of_normalizedText {a b : D}
    (h : Decimal.normalizedText a = Decimal.normalizedText b) : SameValue a b := by
  rw [DecimalNormalizeLaws.normalizedText_eq, DecimalNormalizeLaws.normalizedText_eq] at h
  have hnormal : DecimalNormalize.normalize a = DecimalNormalize.normalize b := by
    have hparse := congrArg (DecimalText.parse (D := D)) h
    rw [DecimalText.parse_text, DecimalText.parse_text] at hparse
    exact Option.some.inj hparse
  unfold SameValue
  rw [← DecimalNormalizeLaws.toRat_normalize a, hnormal, DecimalNormalizeLaws.toRat_normalize]

theorem prefixCode_normalizedText : PrefixCode
    (fun (d : D) p => Canonical.string (Decimal.normalizedText d) = some p) SameValue := by
  intro a b p q x y ha hb h
  obtain ⟨htext, hrest⟩ := prefixCode_string ha hb h
  exact ⟨sameValue_of_normalizedText htext, hrest⟩

omit [DecimalText D] in
theorem prefixCode_decimal :
    PrefixCode (fun (d : D) p => p = Canonical.decimal d) SameValue := by
  have hmantissa : ∀ d : D, -256 ^ 16 ≤ 2 * DecimalNormalize.mantissa d ∧
      2 * DecimalNormalize.mantissa d < 256 ^ 16 := by
    intro d
    obtain ⟨hlow, hhigh⟩ := abs_lt.mp (DecimalNormalizeLaws.mantissa_lt d)
    norm_num at hlow hhigh ⊢
    omega
  have hscale : ∀ d : D, Decimal.scale d < 256 ^ 4 := fun d =>
    (DecimalNormalizeLaws.scale_le d).trans_lt (by norm_num)
  apply prefixCode_of_length (n := 20)
  · rintro d p rfl
    unfold Canonical.decimal
    rw [List.length_append, length_signedBigEndian, length_bigEndian]
  · rintro a b p rfl h
    unfold Canonical.decimal at h
    obtain ⟨hleft, hright⟩ := List.append_inj h
      ((length_signedBigEndian 16 _).trans (length_signedBigEndian 16 _).symm)
    have hsame := signedBigEndian_injOn (hmantissa _) (hmantissa _) hleft
    have hplaces := bigEndian_injOn (hscale _) (hscale _) hright
    unfold SameValue
    rw [← DecimalNormalizeLaws.toRat_normalize a, ← DecimalNormalizeLaws.toRat_normalize b,
      DecimalNormalizeLaws.toRat_eq, DecimalNormalizeLaws.toRat_eq (DecimalNormalize.normalize b),
      hsame, hplaces]

def SameRange (a b : ExposureRange D) : Prop :=
  SameValue a.minimum b.minimum ∧ SameValue a.maximum b.maximum

theorem prefixCode_decimalMap : PrefixCode
    (fun (m : ExtTreeMap String D) p => Canonical.decimalMap m = some p)
    (SameEntries SameValue) := by
  refine (prefixCode_length.counted (prefixCode_string.pair prefixCode_normalizedText)).comap
    ExtTreeMap.toList (fun m p hm => ?_) fun _ _ => sameEntries_of_forall₂
  obtain ⟨count, hcount, hm⟩ := Option.bind_eq_some_iff.mp hm
  obtain ⟨entries, hentries, hm⟩ := Option.bind_eq_some_iff.mp hm
  cases hm
  refine ⟨count, entries, by rw [ExtTreeMap.length_toList]; exact hcount,
    (writesAll_of_items hentries).imp fun entry p hentry => ?_, rfl⟩
  obtain ⟨asset, hasset, hentry⟩ := Option.bind_eq_some_iff.mp hentry
  obtain ⟨value, hvalue, hentry⟩ := Option.bind_eq_some_iff.mp hentry
  cases hentry
  exact ⟨asset, value, hasset, hvalue, rfl⟩

theorem prefixCode_ranges : PrefixCode
    (fun (m : ExtTreeMap String (ExposureRange D)) p => Canonical.ranges m = some p)
    (SameEntries SameRange) := by
  have hrange : PrefixCode (fun (range : ExposureRange D) p => ∃ q r,
      Canonical.string (Decimal.normalizedText range.minimum) = some q ∧
        Canonical.string (Decimal.normalizedText range.maximum) = some r ∧ p = q ++ r) SameRange :=
    (prefixCode_normalizedText.pair prefixCode_normalizedText).comap
      (fun range => (range.minimum, range.maximum)) (fun _ _ h => h) fun _ _ h => h
  refine (prefixCode_length.counted (prefixCode_string.pair hrange)).comap
    ExtTreeMap.toList (fun m p hm => ?_) fun _ _ => sameEntries_of_forall₂
  obtain ⟨count, hcount, hm⟩ := Option.bind_eq_some_iff.mp hm
  obtain ⟨entries, hentries, hm⟩ := Option.bind_eq_some_iff.mp hm
  cases hm
  refine ⟨count, entries, by rw [ExtTreeMap.length_toList]; exact hcount,
    (writesAll_of_items hentries).imp fun entry p hentry => ?_, rfl⟩
  obtain ⟨asset, hasset, hentry⟩ := Option.bind_eq_some_iff.mp hentry
  obtain ⟨minimum, hminimum, hentry⟩ := Option.bind_eq_some_iff.mp hentry
  obtain ⟨maximum, hmaximum, hentry⟩ := Option.bind_eq_some_iff.mp hentry
  cases hentry
  exact ⟨asset, _, hasset, ⟨minimum, maximum, hminimum, hmaximum, rfl⟩, List.append_assoc _ _ _⟩

/-- Two JSON values are one up to the order of the fields of their objects. -/
inductive SameJson : JsonValue → JsonValue → Prop
  | null : SameJson .null .null
  | bool (value : Bool) : SameJson (.bool value) (.bool value)
  | number (value : JsonNumber) : SameJson (.number value) (.number value)
  | string (value : String) : SameJson (.string value) (.string value)
  | array {values values' : List JsonValue} (items : List.Forall₂ SameJson values values') :
      SameJson (.array values) (.array values')
  | object {fields fields' sorted sorted' : List (String × JsonValue)}
      (left : sorted.Perm fields) (right : sorted'.Perm fields')
      (keys : sorted.map Prod.fst = sorted'.map Prod.fst)
      (values : List.Forall₂ SameJson (sorted.map Prod.snd) (sorted'.map Prod.snd)) :
      SameJson (.object fields) (.object fields')

def asI64 : JsonNumber → Option ℤ
  | .posInt value => if value.toNat < 2 ^ 63 then some value.toNat else none
  | .negInt value _ _ => some value
  | .float _ => none

theorem asI64_injective {a b : JsonNumber} {value : ℤ} (ha : asI64 a = some value)
    (hb : asI64 b = some value) : a = b := by
  cases a with
  | posInt v =>
    obtain ⟨-, hv⟩ := Option.ite_none_right_eq_some.mp ha
    cases b with
    | posInt w =>
      obtain ⟨-, hw⟩ := Option.ite_none_right_eq_some.mp hb
      rw [UInt64.toNat_inj.mp (Int.natCast_inj.mp (Option.some.inj (hv.trans hw.symm)))]
    | negInt w hneg _ =>
      cases hb
      have := Option.some.inj hv
      omega
    | float => cases hb
  | negInt v hneg _ =>
    cases ha
    cases b with
    | posInt w =>
      obtain ⟨-, hw⟩ := Option.ite_none_right_eq_some.mp hb
      have := Option.some.inj hw
      omega
    | negInt w =>
      cases hb
      rfl
    | float => cases hb
  | float => cases ha

theorem asI64_range {number : JsonNumber} {value : ℤ} (h : asI64 number = some value) :
    -256 ^ 8 ≤ 2 * value ∧ 2 * value < 256 ^ 8 := by
  cases number with
  | posInt v =>
    obtain ⟨hlt, hv⟩ := Option.ite_none_right_eq_some.mp h
    have := Option.some.inj hv
    norm_num at hlt ⊢
    omega
  | negInt v hneg hge =>
    cases h
    norm_num at hge ⊢
    omega
  | float => cases h

theorem encode_number_eq_ok {number : JsonNumber} {bytes : List UInt8}
    (h : number.encode = .ok bytes) :
    (∃ value, asI64 number = some value ∧ bytes = 0 :: signedBigEndian 8 value) ∨
    (∃ value, number = .posInt value ∧ bytes = 1 :: Canonical.u64 value) ∨
      ∃ bits, number = .float bits ∧ bytes = 2 :: Canonical.u64 bits := by
  cases number with
  | posInt value =>
    by_cases hlt : value.toNat < 2 ^ 63
    · rw [JsonNumber.encode, if_pos hlt] at h
      cases h
      exact .inl ⟨_, if_pos hlt, rfl⟩
    · rw [JsonNumber.encode, if_neg hlt] at h
      cases h
      exact .inr (.inl ⟨value, rfl, rfl⟩)
  | negInt value hneg hge =>
    cases h
    exact .inl ⟨value, rfl, rfl⟩
  | float bits =>
    by_cases hfinite : isFinite bits = true
    · rw [JsonNumber.encode, if_pos hfinite] at h
      cases h
      exact .inr (.inr ⟨bits, rfl, rfl⟩)
    · rw [JsonNumber.encode, if_neg hfinite] at h
      cases h

theorem u64_injective {a b : UInt64} (h : Canonical.u64 a = Canonical.u64 b) : a = b :=
  UInt64.toNat_inj.mp (bigEndian_injOn a.toNat_lt b.toNat_lt h)

theorem prefixCode_number : PrefixCode (fun number p => JsonNumber.encode number = .ok p) Eq := by
  apply prefixCode_of_length (n := 9)
  · intro number p h
    rcases encode_number_eq_ok h with ⟨value, -, rfl⟩ | ⟨value, -, rfl⟩ | ⟨bits, -, rfl⟩
    · rw [List.length_cons, length_signedBigEndian]
    · rw [List.length_cons, Canonical.u64, length_bigEndian]
    · rw [List.length_cons, Canonical.u64, length_bigEndian]
  · intro a b p ha hb
    rcases encode_number_eq_ok ha with ⟨v, hv, rfl⟩ | ⟨v, rfl, rfl⟩ | ⟨v, rfl, rfl⟩
    · rcases encode_number_eq_ok hb with ⟨w, hw, h⟩ | ⟨w, rfl, h⟩ | ⟨w, rfl, h⟩
      · have hsame := signedBigEndian_injOn (asI64_range hv) (asI64_range hw) (List.cons.inj h).2
        rw [← hsame] at hw
        exact asI64_injective hv hw
      · cases (List.cons.inj h).1
      · cases (List.cons.inj h).1
    · rcases encode_number_eq_ok hb with ⟨w, hw, h⟩ | ⟨w, rfl, h⟩ | ⟨w, rfl, h⟩
      · cases (List.cons.inj h).1
      · rw [u64_injective (List.cons.inj h).2]
      · cases (List.cons.inj h).1
    · rcases encode_number_eq_ok hb with ⟨w, hw, h⟩ | ⟨w, rfl, h⟩ | ⟨w, rfl, h⟩
      · cases (List.cons.inj h).1
      · cases (List.cons.inj h).1
      · rw [u64_injective (List.cons.inj h).2]

def jsonTag : JsonValue → UInt8
  | .null => 0
  | .bool _ => 1
  | .number _ => 2
  | .string _ => 3
  | .array _ => 4
  | .object _ => 5

theorem encodeItems_eq (values : List JsonValue) :
    encodeItems values = Canonical.each JsonValue.encode values := by
  induction values with
  | nil => rfl
  | cons value rest ih =>
    rw [encodeItems, ih]
    rfl

theorem encodeFields_eq (fields : List (String × JsonValue)) :
    encodeFields fields = fields.map fun field => (field.1, field.2.encode) := by
  induction fields with
  | nil => rfl
  | cons field rest ih =>
    rw [encodeFields, ih]
    rfl

def sortFields (fields : List (String × JsonValue)) : List (String × JsonValue) :=
  fields.mergeSort fun left right => (compare left.1 right.1).isLE

theorem sortFields_perm (fields : List (String × JsonValue)) : (sortFields fields).Perm fields :=
  List.mergeSort_perm fields _

theorem sort_encodeFields (fields : List (String × JsonValue)) :
    (encodeFields fields).mergeSort (fun left right => (compare left.1 right.1).isLE) =
      (sortFields fields).map fun field => (field.1, field.2.encode) := by
  unfold sortFields
  rw [encodeFields_eq]
  exact (List.map_mergeSort (f := fun field : String × JsonValue => (field.1, field.2.encode))
    fun _ _ _ _ => rfl).symm

theorem each_map {α γ : Type} (write : γ → Except IdentityError (List UInt8)) (f : α → γ)
    (items : List α) : Canonical.each write (items.map f) = Canonical.each (write ∘ f) items := by
  induction items with
  | nil => rfl
  | cons item rest ih =>
    rw [List.map_cons, Canonical.each, ih]
    rfl

theorem jsonTag_of_encode {value : JsonValue} {bytes : List UInt8} (h : value.encode = .ok bytes) :
    ∃ rest, bytes = jsonTag value :: rest := by
  cases value with
  | null =>
    rw [JsonValue.encode] at h
    cases h
    exact ⟨[], rfl⟩
  | bool value =>
    rw [JsonValue.encode] at h
    cases h
    exact ⟨_, rfl⟩
  | number value =>
    rw [JsonValue.encode] at h
    obtain ⟨_, -, h⟩ := of_bind h
    cases h
    exact ⟨_, rfl⟩
  | string value =>
    rw [JsonValue.encode] at h
    obtain ⟨_, -, h⟩ := of_bind h
    cases h
    exact ⟨_, rfl⟩
  | array values =>
    rw [JsonValue.encode] at h
    obtain ⟨_, -, h⟩ := of_bind h
    obtain ⟨_, -, h⟩ := of_bind h
    cases h
    exact ⟨_, rfl⟩
  | object fields =>
    rw [JsonValue.encode] at h
    obtain ⟨_, -, h⟩ := of_bind h
    obtain ⟨_, -, h⟩ := of_bind h
    cases h
    exact ⟨_, rfl⟩

def ToldApart (value : JsonValue) : Prop :=
  ∀ ⦃value' p q x y⦄, value.encode = .ok p → value'.encode = .ok q → p ++ x = q ++ y →
    SameJson value value' ∧ x = y

theorem jsonTag_eq {value value' : JsonValue} {p q x y : List UInt8} (hv : value.encode = .ok p)
    (hw : value'.encode = .ok q) (h : p ++ x = q ++ y) : jsonTag value = jsonTag value' := by
  obtain ⟨_, rfl⟩ := jsonTag_of_encode hv
  obtain ⟨_, rfl⟩ := jsonTag_of_encode hw
  exact (List.cons.inj h).1

theorem toldApart_null : ToldApart .null := by
  intro value' p q x y hv hw h
  have htag := jsonTag_eq hv hw h
  cases value' with
  | null =>
    rw [hv] at hw
    cases hw
    exact ⟨.null, List.append_cancel_left h⟩
  | _ => cases htag

theorem toldApart_bool (value : Bool) : ToldApart (.bool value) := by
  intro value' p q x y hv hw h
  have htag := jsonTag_eq hv hw h
  cases value' with
  | bool value' =>
    rw [JsonValue.encode] at hv hw
    cases hv
    cases hw
    obtain ⟨-, h⟩ := List.cons.inj h
    obtain ⟨hbyte, hrest⟩ := List.cons.inj h
    have hsame : value = value' := by
      revert hbyte
      cases value <;> cases value' <;> decide
    exact ⟨hsame ▸ .bool value, hrest⟩
  | _ => cases htag

theorem toldApart_number (number : JsonNumber) : ToldApart (.number number) := by
  intro value' p q x y hv hw h
  have htag := jsonTag_eq hv hw h
  cases value' with
  | number number' =>
    rw [JsonValue.encode] at hv hw
    obtain ⟨r, hr, hv⟩ := of_bind hv
    obtain ⟨r', hr', hw⟩ := of_bind hw
    cases hv
    cases hw
    rw [List.append_assoc, List.append_assoc] at h
    obtain ⟨rfl, hrest⟩ := prefixCode_number hr hr' (List.append_cancel_left h)
    exact ⟨.number number, hrest⟩
  | _ => cases htag

theorem toldApart_string (text : String) : ToldApart (.string text) := by
  intro value' p q x y hv hw h
  have htag := jsonTag_eq hv hw h
  cases value' with
  | string text' =>
    rw [JsonValue.encode] at hv hw
    obtain ⟨r, hr, hv⟩ := of_bind hv
    obtain ⟨r', hr', hw⟩ := of_bind hw
    cases hv
    cases hw
    rw [List.append_assoc, List.append_assoc] at h
    obtain ⟨rfl, hrest⟩ := prefixCode_string (checked_eq_ok_iff.mp hr) (checked_eq_ok_iff.mp hr')
      (List.append_cancel_left h)
    exact ⟨.string text, hrest⟩
  | _ => cases htag

theorem toldApart_array {values : List JsonValue} (ih : ∀ value ∈ values, ToldApart value) :
    ToldApart (.array values) := by
  intro value' p q x y hv hw h
  have htag := jsonTag_eq hv hw h
  cases value' with
  | array values' =>
    rw [JsonValue.encode] at hv hw
    obtain ⟨c, hc, hv⟩ := of_bind hv
    obtain ⟨r, hr, hv⟩ := of_bind hv
    obtain ⟨c', hc', hw⟩ := of_bind hw
    obtain ⟨r', hr', hw⟩ := of_bind hw
    cases hv
    cases hw
    rw [encodeItems_eq] at hr hr'
    rw [List.append_assoc, List.append_assoc, List.append_assoc, List.append_assoc] at h
    obtain ⟨hlength, h⟩ := prefixCode_length (checked_eq_ok_iff.mp hc) (checked_eq_ok_iff.mp hc')
      (List.append_cancel_left h)
    obtain ⟨hall, hrest⟩ := PrefixCode.all (fun value hvalue => ih value hvalue) hlength
      (writesAll_of_each hr) (writesAll_of_each hr') h
    exact ⟨.array hall, hrest⟩
  | _ => cases htag

theorem field_toldApart {field : String × JsonValue} (ih : ToldApart field.2)
    {field' : String × JsonValue} {p q x y : List UInt8}
    (hv : (do
      let key ← Canonical.checked (Canonical.string field.1)
      let value ← field.2.encode
      pure (key ++ value)) = Except.ok p)
    (hw : (do
      let key ← Canonical.checked (Canonical.string field'.1)
      let value ← field'.2.encode
      pure (key ++ value)) = Except.ok q) (h : p ++ x = q ++ y) :
    (field.1 = field'.1 ∧ SameJson field.2 field'.2) ∧ x = y := by
  obtain ⟨k, hk, hv⟩ := of_bind hv
  obtain ⟨r, hr, hv⟩ := of_bind hv
  obtain ⟨k', hk', hw⟩ := of_bind hw
  obtain ⟨r', hr', hw⟩ := of_bind hw
  cases hv
  cases hw
  rw [List.append_assoc, List.append_assoc] at h
  obtain ⟨hkey, h⟩ := prefixCode_string (checked_eq_ok_iff.mp hk) (checked_eq_ok_iff.mp hk') h
  obtain ⟨hvalue, hrest⟩ := ih hr hr' h
  exact ⟨⟨hkey, hvalue⟩, hrest⟩

theorem sameJson_object {fields fields' : List (String × JsonValue)}
    (h : List.Forall₂ (fun f g => f.1 = g.1 ∧ SameJson f.2 g.2) (sortFields fields)
      (sortFields fields')) : SameJson (.object fields) (.object fields') := by
  refine .object (sortFields_perm fields) (sortFields_perm fields') ?_ ?_
  · rw [← List.forall₂_eq_eq_eq, List.forall₂_map_left_iff, List.forall₂_map_right_iff]
    exact h.imp fun _ _ hboth => hboth.1
  · rw [List.forall₂_map_left_iff, List.forall₂_map_right_iff]
    exact h.imp fun _ _ hboth => hboth.2

theorem toldApart_object {fields : List (String × JsonValue)}
    (ih : ∀ field ∈ fields, ToldApart field.2) : ToldApart (.object fields) := by
  intro value' p q x y hv hw h
  have htag := jsonTag_eq hv hw h
  cases value' with
  | object fields' =>
    rw [JsonValue.encode] at hv hw
    obtain ⟨c, hc, hv⟩ := of_bind hv
    obtain ⟨r, hr, hv⟩ := of_bind hv
    obtain ⟨c', hc', hw⟩ := of_bind hw
    obtain ⟨r', hr', hw⟩ := of_bind hw
    cases hv
    cases hw
    rw [sort_encodeFields, writeFields, each_map] at hr hr'
    rw [List.append_assoc, List.append_assoc, List.append_assoc, List.append_assoc] at h
    obtain ⟨hlength, h⟩ := prefixCode_length (checked_eq_ok_iff.mp hc) (checked_eq_ok_iff.mp hc')
      (List.append_cancel_left h)
    have hsorted : (sortFields fields).length = (sortFields fields').length := by
      rw [(sortFields_perm fields).length_eq, hlength, (sortFields_perm fields').length_eq]
    obtain ⟨hall, hrest⟩ := PrefixCode.all
      (fun field hfield => fun _ _ _ _ _ => field_toldApart
        (ih field ((sortFields_perm fields).mem_iff.mp hfield)))
      hsorted (writesAll_of_each hr) (writesAll_of_each hr') h
    exact ⟨sameJson_object hall, hrest⟩
  | _ => cases htag

mutual

theorem toldApart : ∀ value : JsonValue, ToldApart value
  | .null => toldApart_null
  | .bool value => toldApart_bool value
  | .number number => toldApart_number number
  | .string text => toldApart_string text
  | .array values => toldApart_array (toldApart_items values)
  | .object fields => toldApart_object (toldApart_fields fields)

theorem toldApart_items : ∀ values : List JsonValue, ∀ value ∈ values, ToldApart value
  | [] => nofun
  | value :: rest => List.forall_mem_cons.mpr ⟨toldApart value, toldApart_items rest⟩

theorem toldApart_fields :
    ∀ fields : List (String × JsonValue), ∀ field ∈ fields, ToldApart field.2
  | [] => nofun
  | (_, value) :: rest => List.forall_mem_cons.mpr ⟨toldApart value, toldApart_fields rest⟩

end

end CopyTrade.Analysis
