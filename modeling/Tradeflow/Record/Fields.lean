/-
  Records: values with named fields. A field is looked up under its key, then under its name; what is
  missing has its default or is a problem. Problems are reported field by field in order of
  declaration; the record's own rule is asked only when every field is in order.
-/
import Tradeflow.Record.Codec

namespace Tradeflow

/-- The name of a field and its key in documents. -/
structure FieldName where
  name : String
  key : String

instance : Coe String FieldName := ⟨fun s => ⟨s, s⟩⟩

/-- The first fields of a record `σ`, from which a `β` is made. -/
structure Fields (σ β : Type) where
  shapes : List FieldShape
  names : List FieldName
  read : Assoc Json → Except Fault β
  write : σ → List (String × Json)

namespace Fields

/-- No field yet. -/
def start {β : Type} (σ : Type) (b : β) : Fields σ β := ⟨[], [], fun _ => .ok b, fun _ => []⟩

/-- The value of a field and the key under which it was found. -/
def find? (pairs : Assoc Json) (field : FieldName) : Option (String × Json) :=
  match Assoc.get? pairs field.key with
  | some doc => some (field.key, doc)
  | none => (Assoc.get? pairs field.name).map (field.name, ·)

/-- Reads one field. -/
def readField {α : Type} (field : FieldName) (c : Codec α) (fallback : Option α)
    (pairs : Assoc Json) : Except Fault α :=
  match find? pairs field with
  | some (key, doc) => (c.read doc).mapError (Fault.under (.key key))
  | none =>
    match fallback with
    | some a => .ok a
    | none => .error (.rejected [⟨[.key field.key], .missing⟩])

/-- One more field. -/
def add {σ α β : Type} (fs : Fields σ (α → β)) (field : FieldName) (c : Codec α)
    (fallback : Option α) (get : σ → α) : Fields σ β where
  shapes := fs.shapes ++ [.mk field.name field.key c.renew c.shape]
  names := fs.names ++ [field]
  read pairs :=
    Except.both (fun f a => f a) (fs.read pairs) fun _ => readField field c fallback pairs
  write r := fs.write r ++ [(field.key, c.write (get r))]

/-- A field that has to be given. -/
def req {σ α β : Type} (fs : Fields σ (α → β)) (field : FieldName) (c : Codec α) (get : σ → α) :
    Fields σ β :=
  fs.add field c none get

/-- A field with a default. -/
def opt {σ α β : Type} (fs : Fields σ (α → β)) (field : FieldName) (c : Codec α) (fallback : α)
    (get : σ → α) : Fields σ β :=
  fs.add field c (some fallback) get

/-- The keys that no field was read from. -/
def unknownKeys (names : List FieldName) (pairs : Assoc Json) : List String :=
  let used := names.filterMap fun f => (find? pairs f).map (·.1)
  (Assoc.keys pairs).filter fun k => !used.contains k

end Fields

/-- What a kind of record is besides its fields. -/
structure RecordKind (σ : Type) where
  title : String
  /-- May its fields not be assigned? -/
  frozen : Bool
  /-- Are keys that belong to no field refused? -/
  closed : Bool
  /-- The problems that the record's own rule finds. -/
  check : σ → List Problem

/-- A record without a rule of its own, which ignores unknown keys. -/
def RecordKind.plain {σ : Type} (title : String) : RecordKind σ := ⟨title, false, false, fun _ => []⟩

/-- A record whose fields cannot be assigned. -/
def RecordKind.fixed {σ : Type} (title : String) : RecordKind σ := ⟨title, true, false, fun _ => []⟩

/-- A record that refuses unknown keys. -/
def RecordKind.strict {σ : Type} (title : String) : RecordKind σ := ⟨title, false, true, fun _ => []⟩

/-- Reads the pairs of a record. -/
def Fields.readRecord {σ : Type} (kind : RecordKind σ) (fs : Fields σ σ) (pairs : Assoc Json) :
    Except Fault σ :=
  let unknown := if kind.closed then Fields.unknownKeys fs.names pairs else []
  let extra : List Problem := unknown.map fun k => ⟨[.key k], .unknownKey⟩
  match fs.read pairs with
  | .error (.rejected ps) => .error (.rejected (ps ++ extra))
  | .error e => .error e
  | .ok r =>
    if !extra.isEmpty then .error (.rejected extra)
    else
      match kind.check r with
      | [] => .ok r
      | p :: ps => .error (.rejected (p :: ps))

/-- The codec of a kind of record. -/
def Codec.record {σ : Type} (kind : RecordKind σ) (fs : Fields σ σ) : Codec σ where
  shape :=
    let check (doc : Json) : List Problem :=
      match doc with
      | .obj pairs =>
        match fs.read pairs with
        | .ok r => kind.check r
        | .error _ => []
      | _ => []
    .record kind.title kind.frozen check fs.shapes
  read
    | .obj pairs => fs.readRecord kind pairs
    | _ => .error (Fault.problem .notARecord)
  write r := .obj (fs.write r)

end Tradeflow
