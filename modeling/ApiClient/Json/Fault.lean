import ApiClient.Number.Shortest
import ApiClient.Text.Quoted
import ApiClient.TypeExpr.Parser

/-!
# Faults of JSON documents

Reading a document stops at the first fault in the order of the text. A fault is malformed text, a
text that ends too soon, or a `Mismatch` between well-formed text and the record that it should
hold.
-/

namespace ApiClient.Json

/-- What a document holds where something else is expected. -/
inductive Found where
  | null
  | bool (b : Bool)
  | whole (n : Int)
  | double (x : Binary64)
  | text (s : String)
  | list
  | object

/-- The wording of what was found. -/
def Found.display : Found → String
  | .null => "null"
  | .bool b => "boolean \x60" ++ (if b then "true" else "false") ++ "\x60"
  | .whole n => "integer \x60" ++ toString n ++ "\x60"
  | .double x => "floating point \x60" ++ x.display ++ "\x60"
  | .text s => "string " ++ Text.quoted s
  | .list => "sequence"
  | .object => "map"

/-- How a document differs from the record that it should hold. -/
inductive Mismatch where
  | wrongKind (found : Found) (expected : String)
  | outOfRange (found : Found) (expected : String)
  | unknownVariant (name : String) (variants : List String)
  | missingField (name : String)
  | repeatedField (name : String)
  /-- A record written as a list ends before a field that it needs. -/
  | tooShort (length : Nat) (record : String) (fields : Nat)
  | typeExpression (text : String) (fault : TypeExpr.Fault)

/-- A word between the quotes of messages. -/
def ticked (s : String) : String :=
  "\x60" ++ s ++ "\x60"

/-- The wording of a bad type expression. -/
def typeExpressionMessage (text reason : String) : String :=
  "Invalid type expression '" ++ text ++ "': " ++ reason

/-- The wording of a mismatch. -/
def Mismatch.message : Mismatch → String
  | .wrongKind found expected => "invalid type: " ++ found.display ++ ", expected " ++ expected
  | .outOfRange found expected => "invalid value: " ++ found.display ++ ", expected " ++ expected
  | .unknownVariant name variants =>
    "unknown variant " ++ ticked name ++ ", expected one of "
      ++ ", ".intercalate (variants.map ticked)
  | .missingField name => "missing field " ++ ticked name
  | .repeatedField name => "duplicate field " ++ ticked name
  | .tooShort length record fields =>
    "invalid length " ++ toString length ++ ", expected struct " ++ record ++ " with "
      ++ toString fields ++ (if fields = 1 then " element" else " elements")
  | .typeExpression text fault => typeExpressionMessage text (fault.reason text.toList)

/-- Why a document cannot be read. -/
inductive Fault where
  /-- The text is not JSON, or is nested too deeply, or a number is out of range. -/
  | malformed
  /-- The text ends inside a value. -/
  | truncated
  | mismatch (m : Mismatch)

/-- The wording of a fault. -/
def Fault.message : Fault → String
  | .malformed => "malformed JSON"
  | .truncated => "JSON text ends inside a value"
  | .mismatch m => m.message

end ApiClient.Json
