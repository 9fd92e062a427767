/-
  Tokens as a tree of tagged nodes. Aliases are replaced by the nodes they name, which have to be
  complete there; what is left out is an empty scalar.
-/
import Tradeflow.Assoc
import Tradeflow.Yaml.Token

namespace Tradeflow.Yaml

inductive Node where
  | scalar (tag : Tag) (text : List Char)
  | list (tag : Tag) (items : List Node)
  | map (tag : Tag) (pairs : List (Node × Node))

namespace Node

def tag : Node → Tag
  | scalar t _ => t
  | list t _ => t
  | map t _ => t

/-- What stands where nothing is written. -/
def empty : Node := .scalar (Tag.ofPlain []) []

end Node

/-- The start of the names of all tags that are known without a declaration. -/
def commonLead : String := "tag:yaml.org,2002:"

def Tag.ofName (name : String) : Tag :=
  match [("null", Tag.null), ("bool", .bool), ("int", .int), ("float", .float), ("timestamp", .date),
    ("str", .text), ("merge", .merge), ("value", .own), ("seq", .seq), ("map", .map)].find?
      fun p => commonLead ++ p.1 == name with
  | some p => p.2
  | none => .other name

/-- What is left to be read, the nodes with an anchor so far, and what tag handles stand for. -/
structure Stock where
  rest : List Token
  anchors : Assoc Node
  handles : Assoc String

namespace Stock

def skip (s : Stock) : Stock := { s with rest := s.rest.tail }

/-- Takes a token if it is the next one. -/
def take? (s : Stock) (p : Token → Bool) : Option Stock :=
  match s.rest with
  | t :: rest => if p t then some { s with rest := rest } else none
  | [] => none

/-- What is wrong with the next token, where another one should stand. -/
def flaw (s : Stock) : Flaw :=
  match s.rest with
  | .cut flaw :: _ => flaw
  | _ => .order

/-- Takes a token that has to be the next one. -/
def take (s : Stock) (p : Token → Bool) : Except Flaw Stock :=
  match s.take? p with
  | some s => .ok s
  | none => .error s.flaw

/-- Is the next token one of these, or is there none? -/
def before (s : Stock) (p : Token → Bool) : Bool := s.rest.head?.all p

end Stock

def Token.isItem : Token → Bool
  | .item => true
  | _ => false

def Token.isKey : Token → Bool
  | .key => true
  | _ => false

def Token.isValue : Token → Bool
  | .value => true
  | _ => false

def Token.isComma : Token → Bool
  | .comma => true
  | _ => false

def Token.isLevelEnd : Token → Bool
  | .levelEnd => true
  | _ => false

def Token.isBracketClose : Token → Bool
  | .bracketClose => true
  | _ => false

def Token.isBraceClose : Token → Bool
  | .braceClose => true
  | _ => false

def Token.isDocumentStart : Token → Bool
  | .documentStart => true
  | _ => false

def Token.isDocumentEnd : Token → Bool
  | .documentEnd => true
  | _ => false

/-- The anchor and the tag that are written before a node. -/
structure Properties where
  anchor : Option String
  tag : Option TagText

/-- Reads an anchor and a tag, in either order. -/
def readProperties (s : Stock) : Properties × Stock :=
  match s.rest with
  | .anchor a :: .tag t :: _ => (⟨some a, some t⟩, s.skip.skip)
  | .tag t :: .anchor a :: _ => (⟨some a, some t⟩, s.skip.skip)
  | .anchor a :: _ => (⟨some a, none⟩, s.skip)
  | .tag t :: _ => (⟨none, some t⟩, s.skip)
  | _ => (⟨none, none⟩, s)

/-- The name of a tag with its handle written out; nothing for the tag that leaves it to the look of
the node. -/
def tagName (s : Stock) : Option TagText → Except Flaw (Option String)
  | none => .ok none
  | some t =>
    let name : Except Flaw String :=
      match t.handle with
      | none => .ok t.suffix
      | some h =>
        match Assoc.get? s.handles h with
        | some lead => .ok (lead ++ t.suffix)
        | none => .error (.unknownHandle h)
    name.map some

/-- The tag of a scalar. Without a name its look decides if it has no quotes, or if its tag is `!`. -/
def scalarTag (plain : Bool) (text : List Char) : Option String → Tag
  | none => if plain then Tag.ofPlain text else .text
  | some "!" => Tag.ofPlain text
  | some name => Tag.ofName name

def collectionTag (usual : Tag) : Option String → Tag
  | none => usual
  | some "!" => usual
  | some name => Tag.ofName name

/-- Where a node stands: on indented lines, there also as a list no deeper than its key, or in
brackets. -/
inductive Setting where
  | block
  | underKey
  | flow
  deriving DecidableEq, Repr

mutual

/-- Reads a node. -/
def readNode : (fuel : Nat) → Setting → Stock → Except Flaw (Node × Stock)
  | 0, _, _ => .error .order
  | fuel + 1, setting, s =>
    match s.rest with
    | .alias name :: _ =>
      match Assoc.get? s.anchors name with
      | some n => .ok (n, s.skip)
      | none => .error (.unknownAlias name)
    | _ => do
      let (props, s) := readProperties s
      let name ← tagName s props.tag
      let (n, s) ← readContent fuel setting (props.anchor.isSome || props.tag.isSome) name s
      match props.anchor with
      | none => return (n, s)
      | some a =>
        if (Assoc.get? s.anchors a).isSome then .error (.repeatedAnchor a)
        else return (n, { s with anchors := s.anchors ++ [(a, n)] })

/-- Reads what follows the properties of a node; after properties it may be left out. -/
def readContent : (fuel : Nat) → Setting → (bare : Bool) → Option String → Stock →
    Except Flaw (Node × Stock)
  | 0, _, _, _, _ => .error .order
  | fuel + 1, setting, bare, name, s =>
    match s.rest, setting with
    | .cut flaw :: _, _ => .error flaw
    | .item :: _, .underKey => do
      let (items, s) ← readItems fuel true s
      return (.list (collectionTag .seq name) items, s)
    | .scalar plain text :: _, _ => .ok (.scalar (scalarTag plain text name) text, s.skip)
    | .bracketOpen :: _, _ => do
      let (items, s) ← readBracket fuel true s.skip
      return (.list (collectionTag .seq name) items, s)
    | .braceOpen :: _, _ => do
      let (pairs, s) ← readBrace fuel true s.skip
      return (.map (collectionTag .map name) pairs, s)
    | .listStart :: _, .block | .listStart :: _, .underKey => do
      let (items, s) ← readItems fuel false s.skip
      return (.list (collectionTag .seq name) items, ← s.take (·.isLevelEnd))
    | .mapStart :: _, .block | .mapStart :: _, .underKey => do
      let (pairs, s) ← readPairs fuel s.skip
      return (.map (collectionTag .map name) pairs, ← s.take (·.isLevelEnd))
    | _, _ => if bare then .ok (.scalar (scalarTag true [] name) [], s) else .error .order

/-- Reads the items of an indented list; one no deeper than its key ends with it. -/
def readItems : (fuel : Nat) → (shallow : Bool) → Stock → Except Flaw (List Node × Stock)
  | 0, _, _ => .error .order
  | fuel + 1, shallow, s =>
    match s.take? (·.isItem) with
    | none => .ok ([], s)
    | some s => do
      let missing := s.before fun t =>
        t.isItem || t.isLevelEnd || (shallow && (t.isKey || t.isValue))
      let (n, s) ← if missing then pure (Node.empty, s) else readNode fuel .block s
      let (ns, s) ← readItems fuel shallow s
      return (n :: ns, s)

/-- Reads a node after a key mark or a colon on indented lines. -/
def readPart : (fuel : Nat) → Stock → Except Flaw (Node × Stock)
  | 0, _ => .error .order
  | fuel + 1, s =>
    if s.before fun t => t.isKey || t.isValue || t.isLevelEnd then .ok (.empty, s)
    else readNode fuel .underKey s

/-- Reads the pairs of an indented mapping. -/
def readPairs : (fuel : Nat) → Stock → Except Flaw (List (Node × Node) × Stock)
  | 0, _ => .error .order
  | fuel + 1, s =>
    match s.take? (·.isKey) with
    | none => .ok ([], s)
    | some s => do
      let (k, s) ← readPart fuel s
      let (v, s) ← match s.take? (·.isValue) with
        | some s => readPart fuel s
        | none => pure (Node.empty, s)
      let (ps, s) ← readPairs fuel s
      return ((k, v) :: ps, s)

/-- Reads a node inside brackets that may be left out before a colon, a comma or the end. -/
def readFlowPart : (fuel : Nat) → (ends : Token → Bool) → Stock → Except Flaw (Node × Stock)
  | 0, _, _ => .error .order
  | fuel + 1, ends, s =>
    if s.before fun t => t.isComma || ends t then .ok (.empty, s)
    else readNode fuel .flow s

/-- Reads a pair inside brackets after its key mark. -/
def readFlowPair : (fuel : Nat) → (ends : Token → Bool) → Stock →
    Except Flaw ((Node × Node) × Stock)
  | 0, _, _ => .error .order
  | fuel + 1, ends, s => do
    let (k, s) ← readFlowPart fuel (fun t => t.isValue || ends t) s
    let (v, s) ← match s.take? (·.isValue) with
      | some s => readFlowPart fuel ends s
      | none => pure (Node.empty, s)
    return ((k, v), s)

/-- Reads the items in brackets; a pair is a mapping of its own. -/
def readBracket : (fuel : Nat) → (first : Bool) → Stock → Except Flaw (List Node × Stock)
  | 0, _, _ => .error .order
  | fuel + 1, first, s =>
    match s.take? (·.isBracketClose) with
    | some s => .ok ([], s)
    | none => do
      let s ← if first then pure s else s.take (·.isComma)
      match s.take? (·.isBracketClose) with
      | some s => return ([], s)
      | none => do
        let (n, s) ← match s.take? (·.isKey) with
          | some s => do
            let (p, s) ← readFlowPair fuel (·.isBracketClose) s
            pure (Node.map .map [p], s)
          | none => readNode fuel .flow s
        let (ns, s) ← readBracket fuel false s
        return (n :: ns, s)

/-- Reads the pairs in braces; a key may stand alone. -/
def readBrace : (fuel : Nat) → (first : Bool) → Stock → Except Flaw (List (Node × Node) × Stock)
  | 0, _, _ => .error .order
  | fuel + 1, first, s =>
    match s.take? (·.isBraceClose) with
    | some s => .ok ([], s)
    | none => do
      let s ← if first then pure s else s.take (·.isComma)
      match s.take? (·.isBraceClose) with
      | some s => return ([], s)
      | none => do
        let (p, s) ← match s.take? (·.isKey) with
          | some s => readFlowPair fuel (·.isBraceClose) s
          | none => do
            let (k, s) ← readNode fuel .flow s
            pure ((k, Node.empty), s)
        let (ps, s) ← readBrace fuel false s
        return (p :: ps, s)

end

/-- The declarations before a document. -/
def readDirectives : List Token → (versioned : Bool) → (handles : Assoc String) →
    Except Flaw (Assoc String × List Token)
  | .directive d :: rest, versioned, handles =>
    match d with
    | .version major _ =>
      if versioned then .error .repeatedDirective
      else if major != 1 then .error (.version major)
      else readDirectives rest true handles
    | .tag handle lead =>
      if (Assoc.get? handles handle).isSome then .error .repeatedDirective
      else readDirectives rest versioned (handles ++ [(handle, lead)])
    | .other _ => readDirectives rest versioned handles
  | rest, _, handles => .ok (handles ++ [("!", "!"), ("!!", commonLead)], rest)

/-- Does a token stand between documents? -/
def Token.isBetween : Token → Bool
  | .directive _ | .documentStart | .documentEnd => true
  | _ => false

/-- The one document among some tokens, if there is one. -/
def Node.ofTokens (ts : List Token) : Except Flaw (Option Node) := do
  let fuel := 4 * ts.length + 4
  let body (s : Stock) : Except Flaw (Option Node) := do
    let (n, s) ← if s.before (·.isBetween) then pure (Node.empty, s) else readNode fuel .block s
    match s.rest.dropWhile (·.isDocumentEnd) with
    | [] => return some n
    | .cut flaw :: _ => .error flaw
    | _ => .error .documents
  match ts with
  | .directive _ :: _ | .documentStart :: _ => do
    let (handles, rest) ← readDirectives ts false []
    body (← Stock.take ⟨rest, [], handles⟩ (·.isDocumentStart))
  | [] => return none
  | .documentEnd :: _ => .error .order
  | _ => body ⟨ts, [], [("!", "!"), ("!!", commonLead)]⟩

end Tradeflow.Yaml
