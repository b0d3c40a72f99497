import CopyTrade.Foundation.Results

/-!
# The data model of serde

A derived `Serialize` hands its format one value of serde's data model (`Value`); a self-describing
format gives its reader a `Content` back.  Compact MessagePack writes a struct as the sequence of
its fields, JSON as a map, and JSON refuses a map whose keys are not texts, integers, booleans or
unit variants.

An internally tagged enumeration adds the name of the variant to the content of the variant, which
works for a struct and for a map.
-/

namespace CopyTrade.Foundation

/-- A value of serde's data model. -/
inductive Value
  | bool (b : Bool)
  | int (n : ℕ)
  | text (s : String)
  | none
  | some (value : Value)
  | newtype (value : Value)
  | unitVariant (name : String)
  | newtypeVariant (name : String) (value : Value)
  | structVariant (name : String) (fields : List (String × Value))
  | seq (items : List Value)
  | tuple (items : List Value)
  | map (entries : List (Value × Value))
  | struct (fields : List (String × Value))

/-- What a self-describing format reads. -/
inductive Content
  | unit
  | bool (b : Bool)
  | int (n : ℕ)
  | text (s : String)
  | seq (items : List Content)
  | map (entries : List (Content × Content))

mutual

/-- A value in the compact form: a struct is the sequence of its fields. -/
def compact : Value → Content
  | .bool b => .bool b
  | .int n => .int n
  | .text s => .text s
  | .none => .unit
  | .some value => compact value
  | .newtype value => compact value
  | .unitVariant name => .text name
  | .newtypeVariant name value => .map [(.text name, compact value)]
  | .structVariant name fields => .map [(.text name, .seq (compactFields fields))]
  | .seq items => .seq (compactItems items)
  | .tuple items => .seq (compactItems items)
  | .map entries => .map (compactEntries entries)
  | .struct fields => .seq (compactFields fields)

def compactItems : List Value → List Content
  | [] => []
  | value :: rest => compact value :: compactItems rest

def compactFields : List (String × Value) → List Content
  | [] => []
  | (_, value) :: rest => compact value :: compactFields rest

def compactEntries : List (Value × Value) → List (Content × Content)
  | [] => []
  | (key, value) :: rest => (compact key, compact value) :: compactEntries rest

end

theorem compactFields_append (a b : List (String × Value)) :
    compactFields (a ++ b) = compactFields a ++ compactFields b := by
  induction a with
  | nil => rfl
  | cons field a ih =>
    rw [List.cons_append, compactFields, ih]
    rfl

/-- The text of a map key; a key of any other kind is refused. -/
def jsonKey : Value → Except String String
  | .text s => .ok s
  | .int n => .ok (Nat.repr n)
  | .bool b => .ok (toString b)
  | .unitVariant name => .ok name
  | .newtype value => jsonKey value
  | .none | .some _ | .newtypeVariant _ _ | .structVariant _ _ | .seq _ | .tuple _ | .map _
  | .struct _ => .error "key must be a string"

mutual

/-- A value as JSON: a struct is the map from the names of its fields. -/
def json : Value → Except String Content
  | .bool b => .ok (.bool b)
  | .int n => .ok (.int n)
  | .text s => .ok (.text s)
  | .none => .ok .unit
  | .some value => json value
  | .newtype value => json value
  | .unitVariant name => .ok (.text name)
  | .newtypeVariant name value => do
    let content ← json value
    pure (.map [(.text name, content)])
  | .structVariant name fields => do
    let entries ← jsonFields fields
    pure (.map [(.text name, .map entries)])
  | .seq items => do
    let contents ← jsonItems items
    pure (.seq contents)
  | .tuple items => do
    let contents ← jsonItems items
    pure (.seq contents)
  | .map entries => do
    let contents ← jsonEntries entries
    pure (.map contents)
  | .struct fields => do
    let entries ← jsonFields fields
    pure (.map entries)

def jsonItems : List Value → Except String (List Content)
  | [] => .ok []
  | value :: rest => do
    let content ← json value
    let contents ← jsonItems rest
    pure (content :: contents)

def jsonFields : List (String × Value) → Except String (List (Content × Content))
  | [] => .ok []
  | (name, value) :: rest => do
    let content ← json value
    let entries ← jsonFields rest
    pure ((.text name, content) :: entries)

def jsonEntries : List (Value × Value) → Except String (List (Content × Content))
  | [] => .ok []
  | (key, value) :: rest => do
    let name ← jsonKey key
    let content ← json value
    let entries ← jsonEntries rest
    pure ((.text name, content) :: entries)

end

theorem jsonFields_append (a b : List (String × Value)) :
    jsonFields (a ++ b) = (jsonFields a >>= fun front => jsonFields b >>= fun back =>
      .ok (front ++ back)) := by
  induction a with
  | nil =>
    rw [List.nil_append, jsonFields, ok_bind]
    cases jsonFields b <;> rfl
  | cons field a ih =>
    obtain ⟨name, value⟩ := field
    rw [List.cons_append, jsonFields, ih, jsonFields]
    cases json value with
    | error message => rfl
    | ok content =>
      cases jsonFields a with
      | error message => rfl
      | ok front => cases jsonFields b <;> rfl

/-- The value is not written as the content of `None`. -/
def Value.isPresent : Value → Bool
  | .none => false
  | .some value => value.isPresent
  | .newtype value => value.isPresent
  | .bool _ | .int _ | .text _ | .unitVariant _ | .newtypeVariant _ _ | .structVariant _ _
  | .seq _ | .tuple _ | .map _ | .struct _ => true

theorem compact_ne_unit {value : Value} (h : value.isPresent = true) : compact value ≠ .unit := by
  induction value using Value.isPresent.induct with
  | case1 => cases h
  | case2 value ih => exact ih h
  | case3 value ih => exact ih h
  | _ => exact Content.noConfusion

theorem json_ne_unit {value : Value} (h : value.isPresent = true) : json value ≠ .ok .unit := by
  induction value using Value.isPresent.induct with
  | case1 => cases h
  | case2 value ih => exact ih h
  | case3 value ih => exact ih h
  | _ =>
    intro hunit
    unfold json at hunit
    first
    | cases hunit
    | obtain ⟨_, -, hunit⟩ := of_bind hunit
      cases hunit

/-- The value with the name of its variant under the tag, where it has room for it. -/
def tagged (tag name : String) : Value → Except String Value
  | .struct fields => .ok (.struct ((tag, .text name) :: fields))
  | .map entries => .ok (.map ((.text tag, .text name) :: entries))
  | .newtype value => tagged tag name value
  | .bool _ | .int _ | .text _ | .none | .some _ | .unitVariant _ | .newtypeVariant _ _
  | .structVariant _ _ | .seq _ | .tuple _ =>
    .error "cannot serialize tagged newtype variant"

/-- The first entry of a name, and the entries without it. -/
def extract (name : String) : List (Content × Content) → Option (Content × List (Content × Content))
  | [] => none
  | (key, content) :: rest =>
    match key with
    | .text other =>
      if other = name then some (content, rest)
      else (extract name rest).map fun found => (found.1, (key, content) :: found.2)
    | _ => (extract name rest).map fun found => (found.1, (key, content) :: found.2)

theorem extract_cons_self (name : String) (content : Content) (rest : List (Content × Content)) :
    extract name ((.text name, content) :: rest) = some (content, rest) := by
  rw [extract, if_pos rfl]

/-- The name of the variant and its content, from a tagged content. -/
def splitTag (tag : String) : Content → Except String (String × Content)
  | .seq (.text name :: rest) => .ok (name, .seq rest)
  | .map entries =>
    match extract tag entries with
    | some (.text name, rest) => .ok (name, .map rest)
    | _ => .error ("missing field " ++ tag)
  | _ => .error ("missing field " ++ tag)

theorem splitTag_map_cons (tag name : String) (entries : List (Content × Content)) :
    splitTag tag (.map ((.text tag, .text name) :: entries)) = .ok (name, .map entries) := by
  unfold splitTag
  dsimp only
  rw [extract_cons_self]

theorem splitTag_compact {tag name : String} {value result : Value}
    (h : tagged tag name value = .ok result) :
    splitTag tag (compact result) = .ok (name, compact value) := by
  induction value using tagged.induct with
  | case1 fields =>
    cases h
    rfl
  | case2 entries =>
    cases h
    exact splitTag_map_cons tag name (compactEntries entries)
  | case3 value ih => exact ih h
  | _ => cases h

theorem splitTag_json {tag name : String} {value result : Value} {content : Content}
    (h : tagged tag name value = .ok result) (hcontent : json value = .ok content) :
    ∃ whole, json result = .ok whole ∧ splitTag tag whole = .ok (name, content) := by
  induction value using tagged.induct with
  | case1 fields =>
    cases h
    unfold json at hcontent
    obtain ⟨entries, hentries, hcontent⟩ := of_bind hcontent
    cases hcontent
    refine ⟨.map ((.text tag, .text name) :: entries), ?_, ?_⟩
    · unfold json jsonFields json
      rw [hentries]
      rfl
    · exact splitTag_map_cons tag name entries
  | case2 entries =>
    cases h
    unfold json at hcontent
    obtain ⟨contents, hcontents, hcontent⟩ := of_bind hcontent
    cases hcontent
    refine ⟨.map ((.text tag, .text name) :: contents), ?_, ?_⟩
    · unfold json jsonEntries json
      rw [hcontents]
      rfl
    · exact splitTag_map_cons tag name contents
  | case3 value ih => exact ih h hcontent
  | _ => cases h

end CopyTrade.Foundation
