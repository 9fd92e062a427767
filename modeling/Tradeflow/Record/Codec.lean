/-
  How a kind of value is read from a document and written to one. Reading is lenient: numbers may be
  given as text, truth values as words. Writing gives one form, and reading that form gives the value
  back. Free-form documents are the exception: they are read as they are, but written with nothing in
  place of a number that is not finite. A field that is a double is written even then.

  Two things are assumed throughout: texts consist of whole characters, those that are keys included,
  and there is no limit to how deep a document is nested or how long the text of a number is.
-/
import Tradeflow.Fault
import Tradeflow.Record.Numeral

namespace Tradeflow

mutual

/-- What assignments into a document of some kind have to know. -/
inductive Shape where
  /-- A value without parts. -/
  | leaf
  /-- Anything at all. -/
  | free
  | list (item : Shape)
  | map (item : Shape)
  /-- A record, with the problems that its own rule finds in a document that fits otherwise. -/
  | record (title : String) (frozen : Bool) (check : Json → List Problem)
      (fields : List FieldShape)

/-- A field: its name, its key in documents, how a new value is brought into form, its shape. -/
inductive FieldShape where
  | mk (name key : String) (renew : Json → Except Fault Json) (shape : Shape)

end

structure Codec (α : Type) where
  shape : Shape
  read : Json → Except Fault α
  write : α → Json

namespace Codec

/-- Brings a document into the form in which it is written. -/
def renew {α : Type} (c : Codec α) (doc : Json) : Except Fault Json := (c.read doc).map c.write

def text : Codec String where
  shape := .leaf
  read
    | .str s => .ok s
    | _ => .error (Fault.problem .notText)
  write := .str

/-- A double; a whole number must not be too large for one. -/
def readFloat : Json → Except Fault Float
  | .num x => .ok x
  | .int n =>
    let x := Double.ofInt n
    if Double.isFinite x then .ok x else .error (Fault.problem .notAFloat)
  | .bool b => .ok (if b then 1 else 0)
  | .str s =>
    match Numeral.float? s with
    | some x => .ok x
    | none => .error (Fault.problem .floatText)
  | _ => .error (Fault.problem .notAFloat)

def float : Codec Float where
  shape := .leaf
  read := readFloat
  write := .num

/-- A double that is greater than zero. -/
def positiveFloat : Codec Float where
  shape := .leaf
  read doc :=
    match readFloat doc with
    | .ok x => if 0 < x then .ok x else .error (Fault.problem .tooSmall)
    | .error e => .error e
  write := .num

/-- Does a whole number fit into 64 bits? -/
def fits64 (n : Int) : Bool := -9223372036854775808 ≤ n && n ≤ 9223372036854775807

/-- A whole number; a double must have no fraction and lie strictly inside 64 bits. -/
def readInt : Json → Except Fault Int
  | .int n => .ok n
  | .bool b => .ok (if b then 1 else 0)
  | .num x =>
    if !Double.isFinite x then .error (Fault.problem .notFinite)
    else
      match Double.whole? x with
      | none => .error (Fault.problem .intFraction)
      | some n =>
        if -9223372036854775808 < n ∧ n < 9223372036854775807 then .ok n
        else .error (Fault.problem .intSize)
  | .str s =>
    match Numeral.int? s with
    | some n => .ok n
    | none => .error (Fault.problem .intText)
  | _ => .error (Fault.problem .notAnInt)

def int : Codec Int where
  shape := .leaf
  read := readInt
  write := .int

/-- A whole number above `low` and, if a bound is given, not above `high`. -/
def intAbove (low : Int) (high : Option Int) : Codec Int where
  shape := .leaf
  read doc :=
    match readInt doc with
    | .ok n =>
      if high.any (· < n) then .error (Fault.problem .tooLarge)
      else if low < n then .ok n
      else .error (Fault.problem .tooSmall)
    | .error e => .error e
  write := .int

/-- A truth value from a whole number. -/
def boolOfInt (n : Int) : Except Fault Bool :=
  if n = 0 then .ok false
  else if n = 1 then .ok true
  else if fits64 n then .error (Fault.problem .boolText)
  else .error (Fault.problem .notABool)

def readBool : Json → Except Fault Bool
  | .bool b => .ok b
  | .int n => boolOfInt n
  | .num x =>
    match Double.whole? x with
    | some n => boolOfInt n
    | none => .error (Fault.problem .notABool)
  | .str s =>
    match Numeral.bool? s with
    | some b => .ok b
    | none => .error (Fault.problem .boolText)
  | _ => .error (Fault.problem .notABool)

def bool : Codec Bool where
  shape := .leaf
  read := readBool
  write := .bool

/-- One of some words, each standing for a value; `kind` is the problem with anything else. -/
def oneOf {α : Type} (kind : ProblemKind) (all : List α) (word : α → String) : Codec α where
  shape := .leaf
  read
    | .str s =>
      match all.find? (word · == s) with
      | some a => .ok a
      | none => .error (Fault.problem kind)
    | _ => .error (Fault.problem kind)
  write a := .str (word a)

/-- A value, or nothing. -/
def optional {α : Type} (c : Codec α) : Codec (Option α) where
  shape := c.shape
  read
    | .null => .ok none
    | doc => (c.read doc).map some
  write
    | none => .null
    | some a => c.write a

/-- Reads items that start at an index. -/
def readItems {α : Type} (read : Json → Except Fault α) : Nat → List Json → Except Fault (List α)
  | _, [] => .ok []
  | n, x :: xs =>
    Except.both List.cons ((read x).mapError (Fault.under (.index n))) fun _ =>
      readItems read (n + 1) xs

def list {α : Type} (c : Codec α) : Codec (List α) where
  shape := .list c.shape
  read
    | .arr items => readItems c.read 0 items
    | _ => .error (Fault.problem .notAList)
  write as := .arr (as.map c.write)

/-- Reads the values under keys. -/
def readPairs {α : Type} (read : Json → Except Fault α) :
    List (String × Json) → Except Fault (Assoc α)
  | [] => .ok []
  | (k, x) :: ps =>
    Except.both (fun a as => (k, a) :: as) ((read x).mapError (Fault.under (.key k))) fun _ =>
      readPairs read ps

def map {α : Type} (c : Codec α) : Codec (Assoc α) where
  shape := .map c.shape
  read
    | .obj pairs => readPairs c.read pairs
    | _ => .error (Fault.problem .notAMap)
  write as := .obj (as.map fun p => (p.1, c.write p.2))

/-- Any document, read as it is; no number that is not finite is written. -/
def any : Codec Json where
  shape := .free
  read := .ok
  write := Json.nulled

/-- Any object, read as it is; no number that is not finite is written. -/
def object : Codec (Assoc Json) where
  shape := .free
  read
    | .obj pairs => .ok pairs
    | _ => .error (Fault.problem .notAMap)
  write pairs := .obj (Json.nulledPairs pairs)

/-- A date and time as text, in UTC if it names no offset. A text that is none is refused, anything
else that is no text is a fault of its own. -/
def date : Codec Instant where
  shape := .leaf
  read
    | .str s =>
      match Instant.ofText s with
      | .ok t => .ok t
      | .error .outOfRange => .error (.date .outOfRange)
      | .error e => .error (Fault.problem (.refused e.message))
    | doc => .error (.notADate doc.kindName)
  write t := .str t.text

/-- A time stamp as text. -/
def stamp : Codec Instant where
  shape := .leaf
  read
    | .str s =>
      match Instant.ofText s with
      | .ok t => .ok t
      | .error _ => .error (Fault.problem .dateText)
    | _ => .error (Fault.problem .notADate)
  write t := .str t.text

end Codec

end Tradeflow
