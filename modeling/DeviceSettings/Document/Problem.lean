import DeviceSettings.Text.Quoted

/-!
# Problems

Why a document does not say what its reader expects, and how that is worded.
-/

namespace DeviceSettings.Document

/-- What stood where something else was expected. -/
inductive Found
  | null
  | unit
  | boolean (b : Bool)
  | integer (n : Int)
  /-- an integer of more than 64 bits -/
  | wideInteger (n : Int)
  | float (text : String)
  | text (s : String)
  | sequence
  | map
  | enumeration
deriving DecidableEq, Repr, Inhabited

def Found.describe : Found → String
  | null => "null"
  | unit => "unit value"
  | boolean b => "boolean `" ++ (if b then "true" else "false") ++ "`"
  | integer n => "integer `" ++ toString n ++ "`"
  | wideInteger n => "integer `" ++ toString n ++ "` as " ++ (if n < 0 then "i128" else "u128")
  | float s => "floating point `" ++ s ++ "`"
  | text s => "string " ++ Text.quoted s
  | sequence => "sequence"
  | map => "map"
  | enumeration => "enum"

/-- Why a document was refused. -/
inductive Mismatch
  | missingField (name : String)
  | duplicateField (name : String)
  | wrongType (found : Found) (expected : String)
  | wrongValue (found : Found) (expected : String)
  | wrongLength (n : Nat) (expected : String)
  | unknownVariant (name : String) (variants : List String)
  /-- none of the forms of a type without a tag fits -/
  | noVariant (type : String)
  /-- the text is no document of its format, or nests too deep -/
  | malformed
deriving DecidableEq, Repr, Inhabited

/-- Names between backquotes, as a choice. -/
def oneOf : List String → String
  | [] => "there are no variants"
  | [a] => "`" ++ a ++ "`"
  | [a, b] => "`" ++ a ++ "` or `" ++ b ++ "`"
  | names => "one of " ++ String.intercalate ", " (names.map fun n => "`" ++ n ++ "`")

def Mismatch.message : Mismatch → String
  | missingField name => "missing field `" ++ name ++ "`"
  | duplicateField name => "duplicate field `" ++ name ++ "`"
  | wrongType found expected => "invalid type: " ++ found.describe ++ ", expected " ++ expected
  | wrongValue found expected => "invalid value: " ++ found.describe ++ ", expected " ++ expected
  | wrongLength n expected => "invalid length " ++ toString n ++ ", expected " ++ expected
  | unknownVariant name variants =>
    "unknown variant `" ++ name ++ "`, expected " ++ oneOf variants
  | noVariant type => "data did not match any variant of untagged enum " ++ type
  | malformed => "<syntax>"

/-- A step from a node to one that it holds. -/
inductive PathStep
  | key (name : String)
  | index (n : Nat)
  | unknown
deriving DecidableEq, Repr

/-- A path from the root of a document, the last step first. -/
abbrev NodePath := List PathStep

def NodePath.text : NodePath → String
  | [] => "."
  | .index n :: parent => text parent ++ "[" ++ toString n ++ "]"
  | .key name :: parent => (if parent.isEmpty then "" else text parent ++ ".") ++ name
  | .unknown :: parent => (if parent.isEmpty then "" else text parent ++ ".") ++ "?"

/-- A mismatch, and where it was if the format says so. -/
structure Problem where
  path : Option NodePath
  cause : Mismatch
deriving DecidableEq, Repr, Inhabited

def Problem.message (p : Problem) : String :=
  match p.path, p.cause with
  | none, cause | some [], cause | some _, cause@.malformed => cause.message
  | some path, cause => path.text ++ ": " ++ cause.message

end DeviceSettings.Document
