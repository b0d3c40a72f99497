import CopyTrade.Foundation.Maps
import CopyTrade.Foundation.Serde
import Std.Data.String.ToNat

/-!
# Types with a serde implementation

`Serde α` holds what `Serialize` and `Deserialize` of a type do, together with the proofs that
both formats give a value back.  The combinators below build it for the types of the standard
library; `Foundation/Derive` builds it for structs and enumerations.

A map whose keys JSON refuses can be written only when it is empty.  It is a `PartialSerde`,
which says which of its values JSON writes.
-/

namespace CopyTrade.Foundation

open Std (ExtTreeMap ExtTreeSet TransOrd LawfulEqOrd)

/-- A type with `Serialize` and `Deserialize`, every value of which both formats give back. -/
structure Serde (α : Type) where
  serialize : α → Value
  deserialize : Content → Except String α
  /-- What a missing field of this type is read as: `None`, for an option. -/
  absent : Option α := none
  compact_ok : ∀ a, deserialize (compact (serialize a)) = .ok a
  json_ok : ∀ a, ∃ content, json (serialize a) = .ok content ∧ deserialize content = .ok a

namespace Serde

variable {α β : Type}

def bool : Serde Bool where
  serialize := .bool
  deserialize
    | .bool b => .ok b
    | _ => .error "invalid type: expected a boolean"
  compact_ok _ := rfl
  json_ok _ := ⟨_, rfl, rfl⟩

def nat : Serde ℕ where
  serialize := .int
  deserialize
    | .int n => .ok n
    | _ => .error "invalid type: expected an integer"
  compact_ok _ := rfl
  json_ok _ := ⟨_, rfl, rfl⟩

def string : Serde String where
  serialize := .text
  deserialize
    | .text s => .ok s
    | _ => .error "invalid type: expected a string"
  compact_ok _ := rfl
  json_ok _ := ⟨_, rfl, rfl⟩

/-- A type that is written as its text and parsed again. -/
def ofText (text : α → String) (parse : String → Option α) (h : ∀ a, parse (text a) = some a) :
    Serde α where
  serialize a := .text (text a)
  deserialize
    | .text s =>
      match parse s with
      | some a => .ok a
      | none => .error "invalid value"
    | _ => .error "invalid type: expected a string"
  compact_ok a := by
    unfold compact
    dsimp only
    rw [h]
  json_ok a := by
    refine ⟨.text (text a), rfl, ?_⟩
    dsimp only
    rw [h]

def newtype (c : Serde α) : Serde α where
  serialize a := .newtype (c.serialize a)
  deserialize := c.deserialize
  compact_ok a := c.compact_ok a
  json_ok a := c.json_ok a

/-- An option of a type that is never written as nothing. -/
def option (c : Serde α) (h : ∀ a, (c.serialize a).isPresent = true) : Serde (Option α) where
  serialize
    | none => .none
    | some a => .some (c.serialize a)
  deserialize
    | .unit => .ok none
    | content => (c.deserialize content).map some
  absent := some none
  compact_ok a := by
    cases a with
    | none => rfl
    | some a =>
      have hok := c.compact_ok a
      have hunit := compact_ne_unit (h a)
      show (match compact (c.serialize a) with
        | .unit => Except.ok none
        | content => (c.deserialize content).map some) = .ok (some a)
      cases hcontent : compact (c.serialize a) <;> rw [hcontent] at hok hunit
      case unit => exact absurd rfl hunit
      all_goals exact congrArg (Except.map some) hok
  json_ok a := by
    cases a with
    | none => exact ⟨.unit, rfl, rfl⟩
    | some a =>
      obtain ⟨content, hcontent, hok⟩ := c.json_ok a
      have hunit := json_ne_unit (h a)
      refine ⟨content, hcontent, ?_⟩
      rw [hcontent] at hunit
      cases content
      case unit => exact absurd rfl hunit
      all_goals exact congrArg (Except.map some) hok

def readItems (c : Serde α) : List Content → Except String (List α)
  | [] => .ok []
  | content :: rest => do
    let a ← c.deserialize content
    let items ← readItems c rest
    pure (a :: items)

theorem readItems_compact (c : Serde α) (items : List α) :
    readItems c (compactItems (items.map c.serialize)) = .ok items := by
  induction items with
  | nil => rfl
  | cons a items ih =>
    rw [List.map_cons, compactItems, readItems, c.compact_ok, ok_bind, ih]
    rfl

theorem readItems_json (c : Serde α) (items : List α) :
    ∃ contents, jsonItems (items.map c.serialize) = .ok contents ∧
      readItems c contents = .ok items := by
  induction items with
  | nil => exact ⟨[], rfl, rfl⟩
  | cons a items ih =>
    obtain ⟨content, hcontent, ha⟩ := c.json_ok a
    obtain ⟨contents, hcontents, hitems⟩ := ih
    refine ⟨content :: contents, ?_, ?_⟩
    · rw [List.map_cons, jsonItems, hcontent, ok_bind, hcontents]
      rfl
    · rw [readItems, ha, ok_bind, hitems]
      rfl

/-- A `Vec`. -/
def list (c : Serde α) : Serde (List α) where
  serialize items := .seq (items.map c.serialize)
  deserialize
    | .seq items => readItems c items
    | _ => .error "invalid type: expected a sequence"
  compact_ok items := readItems_compact c items
  json_ok items := by
    obtain ⟨contents, hcontents, hitems⟩ := readItems_json c items
    refine ⟨.seq contents, ?_, hitems⟩
    unfold json
    rw [hcontents]
    rfl

/-- A tuple of items of one type, as many as `fromList` asks for. -/
def tuple (c : Serde α) (toList : β → List α) (fromList : List α → Option β)
    (h : ∀ b, fromList (toList b) = some b) : Serde β where
  serialize b := .tuple ((toList b).map c.serialize)
  deserialize
    | .seq items => do
      let read ← readItems c items
      match fromList read with
      | some b => .ok b
      | none => .error "invalid length"
    | _ => .error "invalid type: expected a tuple"
  compact_ok b := by
    show (readItems c (compactItems ((toList b).map c.serialize)) >>= _) = _
    rw [readItems_compact, ok_bind, h]
  json_ok b := by
    obtain ⟨contents, hcontents, hitems⟩ := readItems_json c (toList b)
    refine ⟨.seq contents, ?_, ?_⟩
    · unfold json
      rw [hcontents]
      rfl
    · show (readItems c contents >>= _) = _
      rw [hitems, ok_bind, h]

def pair (c : Serde α) : Serde (α × α) :=
  tuple c (fun p => [p.1, p.2])
    (fun
      | [a, b] => some (a, b)
      | _ => none)
    fun _ => rfl

def set [Ord α] [TransOrd α] [LawfulEqOrd α] [DecidableEq α] (c : Serde α) :
    Serde (ExtTreeSet α) where
  serialize items := (list c).serialize items.toList
  deserialize content := ((list c).deserialize content).map fun items =>
    ExtTreeSet.ofList items compare
  compact_ok items := by
    rw [(list c).compact_ok]
    exact congrArg Except.ok (ofList_toList_set items)
  json_ok items := by
    obtain ⟨content, hcontent, hitems⟩ := (list c).json_ok items.toList
    refine ⟨content, hcontent, ?_⟩
    rw [hitems]
    exact congrArg Except.ok (ofList_toList_set items)

end Serde

/-- The keys of a map that JSON writes. -/
structure KeySerde (κ : Type) where
  serialize : κ → Value
  deserialize : Content → Except String κ
  compact_ok : ∀ k, deserialize (compact (serialize k)) = .ok k
  json_ok : ∀ k, ∃ name, jsonKey (serialize k) = .ok name ∧ deserialize (.text name) = .ok k

namespace KeySerde

def string : KeySerde String where
  serialize := .text
  deserialize := Serde.string.deserialize
  compact_ok _ := rfl
  json_ok _ := ⟨_, rfl, rfl⟩

def parseNat (s : String) : Option ℕ := s.toNat?.filter fun n => Nat.repr n == s

theorem parseNat_repr (n : ℕ) : parseNat (Nat.repr n) = some n := by
  unfold parseNat
  rw [Nat.toNat?_repr, Option.filter_some, if_pos (beq_self_eq_true _)]

def nat : KeySerde ℕ where
  serialize := .int
  deserialize
    | .int n => .ok n
    | .text s =>
      match parseNat s with
      | some n => .ok n
      | none => .error "invalid type: expected an integer"
    | _ => .error "invalid type: expected an integer"
  compact_ok _ := rfl
  json_ok n := by
    refine ⟨Nat.repr n, rfl, ?_⟩
    dsimp only
    rw [parseNat_repr]

end KeySerde

section

variable {κ α : Type}

def readEntries (key : Content → Except String κ) (value : Content → Except String α) :
    List (Content × Content) → Except String (List (κ × α))
  | [] => .ok []
  | (k, v) :: rest => do
    let k ← key k
    let v ← value v
    let entries ← readEntries key value rest
    pure ((k, v) :: entries)

theorem readEntries_compact {key : κ → Value} {readKey : Content → Except String κ}
    (hkey : ∀ k, readKey (compact (key k)) = .ok k) (c : Serde α) (entries : List (κ × α)) :
    readEntries readKey c.deserialize (compactEntries (entries.map fun entry =>
      (key entry.1, c.serialize entry.2))) = .ok entries := by
  induction entries with
  | nil => rfl
  | cons entry entries ih =>
    obtain ⟨k, a⟩ := entry
    rw [List.map_cons, compactEntries, readEntries, hkey, ok_bind, c.compact_ok, ok_bind, ih]
    rfl

theorem readEntries_json (k : KeySerde κ) (c : Serde α) (entries : List (κ × α)) :
    ∃ contents, jsonEntries (entries.map fun entry => (k.serialize entry.1, c.serialize entry.2)) =
        .ok contents ∧
      readEntries k.deserialize c.deserialize contents = .ok entries := by
  induction entries with
  | nil => exact ⟨[], rfl, rfl⟩
  | cons entry entries ih =>
    obtain ⟨key, a⟩ := entry
    obtain ⟨name, hname, hkey⟩ := k.json_ok key
    obtain ⟨content, hcontent, ha⟩ := c.json_ok a
    obtain ⟨contents, hcontents, hentries⟩ := ih
    refine ⟨(.text name, content) :: contents, ?_, ?_⟩
    · rw [List.map_cons, jsonEntries, hname, ok_bind, hcontent, ok_bind, hcontents]
      rfl
    · rw [readEntries, hkey, ok_bind, ha, ok_bind, hentries]
      rfl

variable [Ord κ] [TransOrd κ] [LawfulEqOrd κ] [DecidableEq κ]

def readMap (key : Content → Except String κ) (value : Content → Except String α) :
    Content → Except String (ExtTreeMap κ α)
  | .map entries => (readEntries key value entries).map fun entries =>
    ExtTreeMap.ofList entries compare
  | _ => .error "invalid type: expected a map"

/-- A `BTreeMap` whose keys JSON writes. -/
def Serde.map (k : KeySerde κ) (c : Serde α) : Serde (ExtTreeMap κ α) where
  serialize m := .map (m.toList.map fun entry => (k.serialize entry.1, c.serialize entry.2))
  deserialize := readMap k.deserialize c.deserialize
  compact_ok m := by
    show (readEntries _ _ (compactEntries _)).map _ = _
    rw [readEntries_compact k.compact_ok]
    exact congrArg Except.ok (ofList_toList m)
  json_ok m := by
    obtain ⟨contents, hcontents, hentries⟩ := readEntries_json k c m.toList
    refine ⟨.map contents, ?_, ?_⟩
    · unfold json
      rw [hcontents]
      rfl
    · show (readEntries _ _ contents).map _ = _
      rw [hentries]
      exact congrArg Except.ok (ofList_toList m)

end

/-- A type with `Serialize` and `Deserialize`, of which JSON writes the values that are
`Writable` and refuses the others. -/
structure PartialSerde (α : Type) where
  serialize : α → Value
  deserialize : Content → Except String α
  absent : Option α := none
  Writable : α → Prop
  compact_ok : ∀ a, deserialize (compact (serialize a)) = .ok a
  json_ok : ∀ a, Writable a →
    ∃ content, json (serialize a) = .ok content ∧ deserialize content = .ok a
  json_error : ∀ a, ¬ Writable a → ∃ message, json (serialize a) = .error message

def Serde.toPartial {α : Type} (c : Serde α) : PartialSerde α where
  serialize := c.serialize
  deserialize := c.deserialize
  absent := c.absent
  Writable _ := True
  compact_ok := c.compact_ok
  json_ok a _ := c.json_ok a
  json_error _ h := absurd trivial h

/-- A map whose keys JSON refuses is written when it is empty. -/
def PartialSerde.map {κ α : Type} [Ord κ] [TransOrd κ] [LawfulEqOrd κ] [DecidableEq κ]
    (k : Serde κ) (hrefused : ∀ key, ∃ message, jsonKey (k.serialize key) = .error message)
    (c : Serde α) : PartialSerde (ExtTreeMap κ α) where
  serialize m := .map (m.toList.map fun entry => (k.serialize entry.1, c.serialize entry.2))
  deserialize := readMap k.deserialize c.deserialize
  Writable m := m = ∅
  compact_ok m := by
    show (readEntries _ _ (compactEntries _)).map _ = _
    rw [readEntries_compact k.compact_ok]
    exact congrArg Except.ok (ofList_toList m)
  json_ok m h := by
    subst h
    have hnil : (∅ : ExtTreeMap κ α).toList = [] := ExtTreeMap.toList_eq_nil_iff.mpr rfl
    refine ⟨.map [], ?_, rfl⟩
    rw [hnil]
    rfl
  json_error m h := by
    unfold json
    cases hentries : m.toList with
    | nil =>
      rw [ExtTreeMap.toList_eq_nil_iff] at hentries
      exact absurd hentries h
    | cons entry entries =>
      obtain ⟨message, hmessage⟩ := hrefused entry.1
      refine ⟨message, ?_⟩
      rw [List.map_cons, jsonEntries, hmessage]
      rfl

end CopyTrade.Foundation
