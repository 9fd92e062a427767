/-
  Settings files: YAML mappings in the files of one directory, each known by its name without the
  extension. The settings of a part stand under the name of the part, or are the whole mapping.
-/
import Tradeflow.Backtest.Config
import Tradeflow.Text.Casing
import Tradeflow.Validation.Basic
import Tradeflow.Yaml.Value

namespace Tradeflow.Settings

/-- A directory: where it is, and the texts of its files by name, if it exists. -/
structure Directory where
  path : String
  files : Option (Assoc String)

def extension : String := ".yaml"

/-- A file name without its last extension. A dot in front starts no extension. -/
def stem (file : String) : String :=
  let cs := file.toList.reverse
  match cs.dropWhile (· != '.') with
  | '.' :: name =>
    if name.isEmpty || cs.head? == some '.' then file else String.ofList name.reverse
  | _ => file

/-- Is the file one of settings? -/
def isSettings (file : String) : Bool := file.endsWith extension && !Text.contains file "/"

/-- The parts of a path; empty ones and single dots say nothing. -/
def pathParts (path : String) : List String := (path.splitOn "/").filter fun p => p != "" && p != "."

/-- The pairs of a mapping read from a file. -/
abbrev Pairs := List (Yaml.Key × Yaml.Value)

/-- What a flaw of a text means for the settings in it. -/
def faultOf (name : String) : Yaml.Flaw → Fault
  | .codePoint => .codePointRange
  | .scalar (.int base digits) => .wholeText base digits
  | .scalar (.float text) => .floatText text
  | .scalar (.bool word) => .missingKey word
  | .scalar .stamp => .noAttribute "NoneType" "groupdict"
  | .scalar (.date cause) => .date cause
  | _ => .configSyntax name

namespace Directory

/-- The names of all settings, in order. -/
def names (d : Directory) : List String :=
  let files := Assoc.keys (d.files.getD [])
  ((files.filter isSettings).map stem).mergeSort fun a b => decide (a ≤ b)

/-- The file of some settings, within the directory or absolute. -/
def fileOf (name : String) : String :=
  let file := name ++ extension
  let inside := String.intercalate "/" (pathParts file)
  if file.startsWith "/" then "/" ++ inside else inside

/-- The path of a file. -/
def pathOf (d : Directory) (file : String) : String :=
  if file.startsWith "/" then file else d.path ++ "/" ++ file

/-- Loads settings by name. An empty file is an empty mapping, as is any other that holds nothing. -/
def load (d : Directory) (name : String) : Except Fault Pairs :=
  let file := fileOf name
  match d.files.bind fun files => Assoc.get? files file with
  | none => .error (.configMissing name (d.pathOf file))
  | some text =>
    match Yaml.read text with
    | .error flaw => .error (faultOf name flaw)
    | .ok value =>
      if value.isNothing then .ok []
      else
        match value with
        | .map pairs => .ok pairs
        | _ => .error (.configNotMapping name)

/-- Loads settings that need not be there. -/
def loadOptional (d : Directory) (name : String) : Except Fault Pairs :=
  match d.load name with
  | .error (.configMissing _ _) => .ok []
  | r => r

end Directory

/-- Settings as a document. -/
def shown (pairs : Pairs) : Json := (Yaml.Value.map pairs).toJson .str

/-- The settings of a part, as a document in which no date fits any field. -/
def part (name : String) (pairs : Pairs) : Json :=
  ((Yaml.Value.get? name pairs).getD (.map pairs)).toJson fun _ => .null

def validation (pairs : Pairs) : Except Fault ValidationConfig :=
  ValidationConfig.codec.read (part "validation" pairs)

def simulation (pairs : Pairs) : Except Fault EngineConfig :=
  EngineConfig.codec.read (part "simulation" pairs)

/-- The level of detail of the log: as overridden, in capitals, or the usual one. -/
def logLevel (override : Option String) : String :=
  match override with
  | none => "INFO"
  | some "" => "INFO"
  | some level => Text.upper level

end Tradeflow.Settings
