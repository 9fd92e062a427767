/-
  Assignment to one field inside a document of known shape. A field of a record takes only values that
  its codec reads, in the form in which it writes them; an entry of a map takes any value.
-/
import Tradeflow.Record.Fields

namespace Tradeflow

/-- One step on the way to the record or map whose part is assigned. -/
inductive PathStep where
  | name (s : String)
  | index (n : Int)

/-- What an assignment leads to: the document afterwards, and the fault if there was one. -/
structure Assigned where
  doc : Json
  fault : Option Fault

namespace Assigned

def refused (doc : Json) (fault : Fault) : Assigned := ⟨doc, some fault⟩

end Assigned

def FieldShape.name : FieldShape → String
  | .mk name _ _ _ => name

/-- The name that messages give to the kind of a document of known shape. -/
def Shape.kindName (shape : Shape) (doc : Json) : String :=
  match shape, doc with
  | .record title _ _ _, .obj _ => title
  | _, _ => doc.kindName

/-- The position that a possibly negative index names in a list. -/
def positionOf? (length : Nat) (n : Int) : Option Nat :=
  let k := if n < 0 then n + length else n
  if 0 ≤ k ∧ k < length then some k.toNat else none

/-- Assigns to a field or key of the document itself. A record's own rule is asked afterwards. -/
def assignHere (shape : Shape) (doc : Json) (field : String) (value : Json) : Assigned :=
  match doc, shape with
  | .obj pairs, .record _ frozen check fields =>
    if field.toList.head? = some '_' then ⟨doc, none⟩
    else if frozen then .refused doc (.rejected [⟨[.key field], .frozen⟩])
    else
      match fields.find? (·.name == field) with
      | none => .refused doc (.rejected [⟨[.key field], .unknownField⟩])
      | some (.mk _ key renew _) =>
        match renew value with
        | .error e => .refused doc (e.under (.key field))
        | .ok v =>
          let doc := Json.obj (Assoc.set pairs key v)
          match check doc with
          | [] => ⟨doc, none⟩
          | p :: ps => .refused doc (.rejected (p :: ps))
  | .obj pairs, _ => ⟨.obj (Assoc.set pairs field value), none⟩
  | _, _ => .refused doc (.noAttribute doc.kindName field)

/-- A part of a document, its shape, and the document with another part in its place. -/
structure Part where
  doc : Json
  shape : Shape
  putBack : Json → Json

/-- The part that a step leads to. -/
def Part.find (shape : Shape) (doc : Json) : PathStep → Except Fault Part
  | .name s =>
    match doc, shape with
    | .obj pairs, .record title _ _ fields =>
      match fields.find? (·.name == s) with
      | none => .error (.noAttribute title s)
      | some (.mk _ key _ inner) =>
        .ok ⟨(Assoc.get? pairs key).getD .null, inner, fun v => .obj (Assoc.set pairs key v)⟩
    | .obj pairs, _ =>
      match Assoc.get? pairs s with
      | none => .error (.missingKey s)
      | some v =>
        let inner := match shape with
          | .map item => item
          | _ => .free
        .ok ⟨v, inner, fun v => .obj (Assoc.set pairs s v)⟩
    | _, _ => .error (.noAttribute doc.kindName s)
  | .index n =>
    match doc with
    | .arr items =>
      match positionOf? items.length n with
      | none => .error .indexRange
      | some k =>
        let inner := match shape with
          | .list item => item
          | _ => .free
        .ok ⟨(items[k]?).getD .null, inner, fun v => .arr (items.set k v)⟩
    | _ => .error (.notSubscriptable (shape.kindName doc))

/-- Assigns to a field of the part that a path leads to. -/
def assign (shape : Shape) (doc : Json) : List PathStep → String → Json → Assigned
  | [], field, value => assignHere shape doc field value
  | step :: path, field, value =>
    match Part.find shape doc step with
    | .error e => .refused doc e
    | .ok part =>
      let inner := assign part.shape part.doc path field value
      ⟨part.putBack inner.doc, inner.fault⟩

end Tradeflow
