import CopyTrade.Foundation.Codec

/-!
# Structs and enumerations with a derived serde implementation

A struct is described by its fields in order (`StructSerde`), an internally tagged enumeration
by its variants (`Variant`), so that the description of a type is one definition and the round
trip comes with it.
-/

namespace CopyTrade.Foundation

/-- The fields a struct is read from: by position or by name. -/
inductive Fields
  | positional (items : List Content)
  | named (entries : List (Content × Content))

namespace Fields

def ofContent : Content → Except String Fields
  | .seq items => .ok (.positional items)
  | .map entries => .ok (.named entries)
  | _ => .error "invalid type: expected a struct"

/-- Nothing is left that the struct does not know.  Unknown names are passed over unless the
struct denies them; items past the last field never are. -/
def finish (denyUnknown : Bool) : Fields → Except String Unit
  | .positional [] | .named [] => .ok ()
  | .positional (_ :: _) => .error "invalid length"
  | .named (_ :: _) => if denyUnknown then .error "unknown field" else .ok ()

end Fields

variable {α β σ : Type}

/-- Reading the next field.  `default` is the value of a field marked with a default. -/
def readField (c : PartialSerde α) (name : String) (default : Option α) :
    Fields → Except String (α × Fields)
  | .positional [] =>
    match default with
    | some a => .ok (a, .positional [])
    | none => .error "invalid length"
  | .positional (content :: rest) => do
    let a ← c.deserialize content
    pure (a, .positional rest)
  | .named entries =>
    match extract name entries with
    | some (content, rest) => do
      let a ← c.deserialize content
      pure (a, .named rest)
    | none =>
      match default.or c.absent with
      | some a => .ok (a, .named entries)
      | none => .error ("missing field " ++ name)

theorem readField_positional (c : PartialSerde α) (name : String) (default : Option α) (a : α)
    (rest : List Content) :
    readField c name default (.positional (compact (c.serialize a) :: rest)) =
      .ok (a, .positional rest) := by
  unfold readField
  dsimp only
  rw [c.compact_ok]
  rfl

variable {a : α} {value : Value} {tag : String}

theorem readField_named {c : PartialSerde α} {content : Content} (h : c.deserialize content = .ok a)
    (name : String) (default : Option α) (rest : List (Content × Content)) :
    readField c name default (.named ((.text name, content) :: rest)) = .ok (a, .named rest) := by
  unfold readField
  dsimp only
  rw [extract_cons_self]
  dsimp only
  rw [h]
  rfl

/-- The first fields of a struct `σ`, and how a `β` is read from them: `value` is what reading
the fields of a `σ` back gives, and `Writable` says which fields JSON can write. -/
structure StructSerde (σ β : Type) where
  fields : σ → List (String × Value)
  read : Fields → Except String (β × Fields)
  value : σ → β
  Writable : σ → Prop
  compact_ok : ∀ x rest, read (.positional (compactFields (fields x) ++ rest)) =
    .ok (value x, .positional rest)
  json_ok : ∀ x, Writable x → ∃ entries, jsonFields (fields x) = .ok entries ∧
    ∀ rest, read (.named (entries ++ rest)) = .ok (value x, .named rest)
  json_error : ∀ x, ¬ Writable x → ∃ message, jsonFields (fields x) = .error message

namespace StructSerde

def start (constructor : β) : StructSerde σ β where
  fields _ := []
  read fields := .ok (constructor, fields)
  value _ := constructor
  Writable _ := True
  compact_ok _ _ := rfl
  json_ok _ _ := ⟨[], rfl, fun _ => rfl⟩
  json_error _ h := absurd trivial h

/-- Reading one more field after the fields `s`. -/
def readNext (s : StructSerde σ (α → β)) (next : Fields → Except String (α × Fields))
    (fields : Fields) : Except String (β × Fields) := do
  let (build, fields) ← s.read fields
  let (a, fields) ← next fields
  pure (build a, fields)

def partialField (s : StructSerde σ (α → β)) (name : String) (get : σ → α) (c : PartialSerde α)
    (default : Option α) : StructSerde σ β where
  fields x := s.fields x ++ [(name, c.serialize (get x))]
  read := s.readNext (readField c name default)
  value x := s.value x (get x)
  Writable x := s.Writable x ∧ c.Writable (get x)
  compact_ok x rest := by
    unfold readNext
    rw [compactFields_append, List.append_assoc, s.compact_ok, ok_bind]
    show (readField c name default (.positional (compact (c.serialize (get x)) :: rest)) >>= _) = _
    rw [readField_positional]
    rfl
  json_ok x h := by
    obtain ⟨entries, hentries, hread⟩ := s.json_ok x h.1
    obtain ⟨content, hcontent, hget⟩ := c.json_ok (get x) h.2
    refine ⟨entries ++ [(.text name, content)], ?_, ?_⟩
    · rw [jsonFields_append, hentries, ok_bind, jsonFields, hcontent]
      rfl
    · intro rest
      unfold readNext
      rw [List.append_assoc, hread, ok_bind, List.singleton_append]
      dsimp only
      rw [readField_named hget]
      rfl
  json_error x h := by
    rw [jsonFields_append]
    by_cases hbefore : s.Writable x
    · obtain ⟨entries, hentries, -⟩ := s.json_ok x hbefore
      obtain ⟨message, hmessage⟩ := c.json_error (get x) fun hget => h ⟨hbefore, hget⟩
      refine ⟨message, ?_⟩
      rw [hentries, ok_bind, jsonFields, hmessage]
      rfl
    · obtain ⟨message, hmessage⟩ := s.json_error x hbefore
      exact ⟨message, by rw [hmessage]; rfl⟩

/-- One more field, with a default where it is marked with one. -/
def fieldOr (s : StructSerde σ (α → β)) (name : String) (get : σ → α) (c : Serde α)
    (default : Option α) : StructSerde σ β :=
  { s.partialField name get c.toPartial default with
    Writable := s.Writable
    json_ok := fun x h => (s.partialField name get c.toPartial default).json_ok x ⟨h, trivial⟩
    json_error := fun x h =>
      (s.partialField name get c.toPartial default).json_error x fun hboth => h hboth.1 }

def field (s : StructSerde σ (α → β)) (name : String) (get : σ → α) (c : Serde α) :
    StructSerde σ β :=
  s.fieldOr name get c none

def toPartial (s : StructSerde σ σ) (denyUnknown : Bool) (hvalue : ∀ x, s.value x = x) :
    PartialSerde σ where
  serialize x := .struct (s.fields x)
  deserialize content := do
    let fields ← Fields.ofContent content
    let (x, rest) ← s.read fields
    rest.finish denyUnknown
    pure x
  Writable := s.Writable
  compact_ok x := by
    have hread := s.compact_ok x []
    rw [List.append_nil, hvalue] at hread
    show (s.read (.positional (compactFields (s.fields x))) >>= _) = _
    rw [hread]
    rfl
  json_ok x h := by
    obtain ⟨entries, hentries, hread⟩ := s.json_ok x h
    have hread := hread []
    rw [List.append_nil, hvalue] at hread
    refine ⟨.map entries, ?_, ?_⟩
    · unfold json
      rw [hentries]
      rfl
    · show (s.read (.named entries) >>= _) = _
      rw [hread]
      rfl
  json_error x h := by
    obtain ⟨message, hmessage⟩ := s.json_error x h
    refine ⟨message, ?_⟩
    unfold json
    rw [hmessage]
    rfl

/-- The type of a struct all of whose fields are written. -/
def toSerde (s : StructSerde σ σ) (denyUnknown : Bool) (hvalue : ∀ x, s.value x = x)
    (hwritable : ∀ x, s.Writable x) : Serde σ :=
  { s.toPartial denyUnknown hvalue with
    json_ok := fun x => (s.toPartial denyUnknown hvalue).json_ok x (hwritable x) }

end StructSerde

/-- An enumeration of unit variants: each is written as its name. -/
def Serde.unitEnum (name : α → String) (variants : List α)
    (h : ∀ a, variants.find? (fun variant => name variant == name a) = some a) : Serde α where
  serialize a := .unitVariant (name a)
  deserialize
    | .text s =>
      match variants.find? fun variant => name variant == s with
      | some a => .ok a
      | none => .error ("unknown variant " ++ s)
    | _ => .error "invalid type: expected an enumeration"
  compact_ok a := by
    unfold compact
    dsimp only
    rw [h]
  json_ok a := by
    refine ⟨.text (name a), rfl, ?_⟩
    dsimp only
    rw [h]

/-- One variant of an internally tagged enumeration: its name, its content where a value is of
this variant, and how it is read from its content. -/
structure Variant (α : Type) where
  name : String
  content : α → Option Value
  read : Content → Except String α
  compact_ok : ∀ a value, content a = some value → read (compact value) = .ok a
  json_ok : ∀ a value, content a = some value →
    ∃ c, json value = .ok c ∧ read c = .ok a

def Variant.of (name : String) (get : α → Option β) (build : β → α)
    (h : ∀ a b, get a = some b → build b = a) (c : Serde β) : Variant α where
  name := name
  content a := (get a).map c.serialize
  read content := (c.deserialize content).map build
  compact_ok a value hcontent := by
    obtain ⟨b, hget, rfl⟩ := Option.map_eq_some_iff.mp hcontent
    rw [c.compact_ok]
    exact congrArg Except.ok (h a b hget)
  json_ok a value hcontent := by
    obtain ⟨b, hget, rfl⟩ := Option.map_eq_some_iff.mp hcontent
    obtain ⟨content, hjson, hread⟩ := c.json_ok b
    refine ⟨content, hjson, ?_⟩
    rw [hread]
    exact congrArg Except.ok (h a b hget)

/-- The name and the content of the first variant a value is of. -/
def contentOf (variants : List (Variant α)) (a : α) : Option (String × Value) :=
  variants.findSome? fun variant => (variant.content a).map fun value => (variant.name, value)

/-- `Serialize` of an internally tagged enumeration. -/
def serializeTagged (tag : String) (variants : List (Variant α)) (a : α) : Except String Value :=
  match contentOf variants a with
  | some (name, value) => tagged tag name value
  | none => .error "no variant"

def readVariant (variants : List (Variant α)) (name : String) (content : Content) :
    Except String α :=
  match variants.find? fun variant => variant.name == name with
  | some variant => variant.read content
  | none => .error ("unknown variant " ++ name)

/-- `Deserialize` of an internally tagged enumeration. -/
def deserializeTagged (tag : String) (variants : List (Variant α)) (content : Content) :
    Except String α := do
  let (name, rest) ← splitTag tag content
  readVariant variants name rest

variable {variants : List (Variant α)}

theorem find?_of_contentOf (hnames : (variants.map Variant.name).Nodup) {name : String}
    (h : contentOf variants a = some (name, value)) :
    ∃ variant ∈ variants, variant.content a = some value ∧
      variants.find? (fun other => other.name == name) = some variant := by
  obtain ⟨variant, hmem, hcontent⟩ := List.exists_of_findSome?_eq_some h
  obtain ⟨found, hfound, hpair⟩ := Option.map_eq_some_iff.mp hcontent
  obtain ⟨rfl, rfl⟩ := Prod.mk.inj hpair
  refine ⟨variant, hmem, hfound, ?_⟩
  have hunique := List.inj_on_of_nodup_map hnames
  have hsome : (variants.find? fun other => other.name == variant.name).isSome = true := by
    rw [List.find?_isSome]
    exact ⟨variant, hmem, beq_self_eq_true _⟩
  obtain ⟨other, hother⟩ := Option.isSome_iff_exists.mp hsome
  have hsame := List.find?_some hother
  rw [beq_iff_eq] at hsame
  rw [hother, hunique (List.mem_of_find?_eq_some hother) hmem hsame]

/-- **Tagged round trip, compact form.** -/
theorem deserializeTagged_compact (hnames : (variants.map Variant.name).Nodup)
    (h : serializeTagged tag variants a = .ok value) :
    deserializeTagged tag variants (compact value) = .ok a := by
  unfold serializeTagged at h
  split at h
  · rename_i name content hcontent
    obtain ⟨variant, -, hvariant, hfind⟩ := find?_of_contentOf hnames hcontent
    unfold deserializeTagged
    rw [splitTag_compact h, ok_bind]
    dsimp only
    unfold readVariant
    rw [hfind]
    exact variant.compact_ok a content hvariant
  · cases h

/-- **Tagged round trip, JSON.** -/
theorem deserializeTagged_json (hnames : (variants.map Variant.name).Nodup)
    (h : serializeTagged tag variants a = .ok value) :
    ∃ content, json value = .ok content ∧ deserializeTagged tag variants content = .ok a := by
  unfold serializeTagged at h
  split at h
  · rename_i name inner hcontent
    obtain ⟨variant, -, hvariant, hfind⟩ := find?_of_contentOf hnames hcontent
    obtain ⟨content, hjson, hread⟩ := variant.json_ok a inner hvariant
    obtain ⟨whole, hwhole, hsplit⟩ := splitTag_json h hjson
    refine ⟨whole, hwhole, ?_⟩
    unfold deserializeTagged
    rw [hsplit, ok_bind]
    dsimp only
    unfold readVariant
    rw [hfind]
    exact hread
  · cases h

/-- The tagged value, where there is one for every value of the enumeration. -/
def taggedValue (tag : String) (variants : List (Variant α))
    (h : ∀ a, ∃ value, serializeTagged tag variants a = .ok value) (a : α) : Value :=
  match hresult : serializeTagged tag variants a with
  | .ok value => value
  | .error _ => absurd (h a) fun ⟨_, hvalue⟩ => nomatch hresult.symm.trans hvalue

theorem serializeTagged_eq_taggedValue
    (h : ∀ a, ∃ value, serializeTagged tag variants a = .ok value) (a : α) :
    serializeTagged tag variants a = .ok (taggedValue tag variants h a) := by
  unfold taggedValue
  split
  · assumption
  · rename_i message hmessage
    obtain ⟨value, hvalue⟩ := h a
    rw [hmessage] at hvalue
    cases hvalue

/-- The type of an internally tagged enumeration all of whose values can be tagged. -/
def Serde.taggedEnum (tag : String) (variants : List (Variant α))
    (hnames : (variants.map Variant.name).Nodup)
    (h : ∀ a, ∃ value, serializeTagged tag variants a = .ok value) : Serde α where
  serialize := taggedValue tag variants h
  deserialize := deserializeTagged tag variants
  compact_ok a := deserializeTagged_compact hnames (serializeTagged_eq_taggedValue h a)
  json_ok a := deserializeTagged_json hnames (serializeTagged_eq_taggedValue h a)

end CopyTrade.Foundation
