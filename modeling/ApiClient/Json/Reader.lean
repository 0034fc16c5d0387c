import ApiClient.Json.Outline

/-!
# Reading JSON documents

A `Reader` turns an outline into a value of the domain, or reports the first fault in the order of
the text. Besides the outline it is given the depth to which nesting is still allowed.

* `Reader.text`, `bool`, `int64`, `listOf`, `optional`, `typeExpr`, `oneOf`: readers of the kinds
  of values that documents hold.
* `Shape`, `Reader.record`: records, written as an object, or as the list of their fields in order.
* `Reader.value`: any value.
* `Reader.run`: reads a whole text.
-/

namespace ApiClient.Json

/-- Reads an outline, given the number of levels that may still be opened, and one more. -/
abbrev Reader (α : Type) := Nat → Outline → Except Fault α

namespace Reader

/-! ## Plain values -/

/-- What stands where something else is expected. Lists and objects are not looked into. -/
def found : Outline → Except Fault Found
  | .null => .ok .null
  | .bool b => .ok (.bool b)
  | .number n =>
    match n.value? with
    | some (.whole n) => .ok (.whole n)
    | some (.double x) => .ok (.double x)
    | none => .error .malformed
  | .string text => text.map .text
  | .list _ _ => .ok .list
  | .object _ _ => .ok .object
  | .broken f _ => .error f

/-- The fault of an outline that does not hold what is expected. -/
def wrongKind {α : Type} (expected : String) (o : Outline) : Except Fault α := do
  let found ← found o
  .error (.mismatch (.wrongKind found expected))

/-- Opens a level of nesting and gives the depth that is left inside. -/
def enter (depth : Nat) : Except Fault Nat :=
  if depth ≤ 1 then .error .malformed else .ok (depth - 1)

/-- A text. -/
def text : Reader String := fun _ o =>
  match o with
  | .string text => text
  | o => wrongKind "a string" o

/-- A truth value. -/
def bool : Reader Bool := fun _ o =>
  match o with
  | .bool b => .ok b
  | o => wrongKind "a boolean" o

/-- A whole number of 64 bits with a sign. -/
def int64 : Reader Int := fun _ o =>
  match o with
  | .number n =>
    match n.value? with
    | some (.whole n) =>
      if -(Nat.pow 2 63 : Int) ≤ n ∧ n < Nat.pow 2 63 then .ok n
      else .error (.mismatch (.outOfRange (.whole n) "i64"))
    | _ => wrongKind "i64" o
  | o => wrongKind "i64" o

/-- A type expression, written as a text. -/
def typeExpr : Reader TypeExpr := fun depth o => do
  let input ← text depth o
  match TypeExpr.parse input with
  | .ok e => .ok e
  | .error fault => .error (.mismatch (.typeExpression input fault))

/-- Null, or a value. -/
def optional {α : Type} (read : Reader α) : Reader (Option α) := fun depth o =>
  match o with
  | .null => .ok none
  | o => (read depth o).map some

/-- The items of a list in order. -/
def items {α : Type} (read : Reader α) (depth : Nat) : List Outline → Except Fault (List α)
  | [] => .ok []
  | o :: os => do
    let a ← read depth o
    let as ← items read depth os
    .ok (a :: as)

/-- A list. -/
def listOf {α : Type} (read : Reader α) : Reader (List α) := fun depth o =>
  match o with
  | .list os stop => do
    let depth ← enter depth
    let as ← items read depth os
    Outline.atEnd stop
    .ok as
  | o => wrongKind "a sequence" o

/-! ## Variants -/

/-- The variant of a name. -/
def variant {α : Type} (variants : List (String × α)) (name : String) : Except Fault α :=
  match variants.find? (·.1 == name) with
  | some v => .ok v.2
  | none => .error (.mismatch (.unknownVariant name (variants.map (·.1))))

/-- A variant by its name, or an object that holds its name and null. -/
def oneOf {α : Type} (variants : List (String × α)) : Reader α := fun depth o =>
  match o with
  | .string name => do
    variant variants (← name)
  | .object members stop => do
    let _ ← enter depth
    match members with
    | [] => .error (stop.getD .malformed)
    | (key, value) :: more =>
      let name ←
        match key with
        | .string name => name
        | key => wrongKind "variant identifier" key
      let v ← variant variants name
      match value with
      | .null =>
        match more with
        | [] => do
          Outline.atEnd stop
          .ok v
        | _ => .error .malformed
      | value => wrongKind "unit" value
  | .broken f _ => .error f
  | _ => .error .malformed

/-! ## Records -/

/-- A field of a record that is collected in `ρ`. -/
structure Field (ρ : Type) where
  name : String
  /-- Other keys that the field is known by. -/
  aliases : List String
  /-- An object may leave the field out. -/
  mayBeAbsent : Bool
  /-- A list of fields may end before the field. -/
  mayEndBefore : Bool
  /-- Reads the field into the record. -/
  read : ρ → Reader ρ

/-- The fields of a record in order, and the record before any is read. -/
structure Shape (ρ : Type) where
  name : String
  blank : ρ
  fields : List (Field ρ)

/-- A field that every form of the record needs. -/
def Field.required {ρ α : Type} (name : String) (read : Reader α) (set : α → ρ → ρ) : Field ρ :=
  ⟨name, [], false, false, fun r depth o => (read depth o).map (set · r)⟩

/-- A field with a default. -/
def Field.defaulted {ρ α : Type} (name : String) (read : Reader α) (set : α → ρ → ρ) : Field ρ :=
  ⟨name, [], true, true, fun r depth o => (read depth o).map (set · r)⟩

/-- A field that an object may leave out, but not a list of fields. -/
def Field.optional {ρ α : Type} (name : String) (aliases : List String) (read : Reader α)
    (set : Option α → ρ → ρ) : Field ρ :=
  ⟨name, aliases, true, false, fun r depth o => (Reader.optional read depth o).map (set · r)⟩

/-- The key of a member. -/
def key : Outline → Except Fault String
  | .string text => text
  | _ => .error .malformed

/-- The members of an object, read into `r`; `seen` are the fields that were read before. Keys that
name no field are skipped. -/
def members {ρ : Type} (fields : List (Field ρ)) (depth : Nat) :
    List String → ρ → List (Outline × Outline) → Except Fault (List String × ρ)
  | seen, r, [] => .ok (seen, r)
  | seen, r, (k, value) :: ms => do
    let k ← key k
    match fields.find? fun f => f.name == k || f.aliases.contains k with
    | none =>
      value.skip
      members fields depth seen r ms
    | some f =>
      if seen.contains f.name then .error (.mismatch (.repeatedField f.name))
      else
        let r ← f.read r depth value
        members fields depth (f.name :: seen) r ms

/-- The fields of a record in order, read into `r` from a list; `count` were read before. -/
def listed {ρ : Type} (shape : Shape ρ) (depth count : Nat) (stop : Option Fault) :
    List (Field ρ) → ρ → List Outline → Except Fault ρ
  | [], r, [] => do
    Outline.atEnd stop
    .ok r
  | [], _, _ :: _ => .error .malformed
  | f :: fs, r, o :: os => do
    let r ← f.read r depth o
    listed shape depth (count + 1) stop fs r os
  | f :: fs, r, [] => do
    Outline.atEnd stop
    if f.mayEndBefore then listed shape depth (count + 1) stop fs r []
    else .error (.mismatch (.tooShort count shape.name shape.fields.length))

/-- A record, written as an object or as the list of its fields. -/
def record {ρ : Type} (shape : Shape ρ) : Reader ρ := fun depth o =>
  match o with
  | .object ms stop => do
    let depth ← enter depth
    let (seen, r) ← members shape.fields depth [] shape.blank ms
    Outline.atEnd stop
    match shape.fields.find? fun f => !f.mayBeAbsent && !seen.contains f.name with
    | some f => .error (.mismatch (.missingField f.name))
    | none => .ok r
  | .list os stop => do
    let depth ← enter depth
    listed shape depth 0 stop shape.fields shape.blank os
  | o => wrongKind ("struct " ++ shape.name) o

/-! ## Any value -/

mutual
/-- Any value. -/
def value : Nat → Outline → Except Fault Value
  | _, .null => .ok .null
  | _, .bool b => .ok (.bool b)
  | _, .number n =>
    match n.value? with
    | some n => .ok (.number n)
    | none => .error .malformed
  | _, .string text => text.map .string
  | depth, .list items stop => do
    let depth ← enter depth
    let vs ← values depth items
    Outline.atEnd stop
    .ok (.array vs)
  | depth, .object members stop => do
    let depth ← enter depth
    let ms ← valueMembers depth members
    Outline.atEnd stop
    .ok (.object ms)
  | _, .broken f _ => .error f
/-- Any values. -/
def values : Nat → List Outline → Except Fault (List Value)
  | _, [] => .ok []
  | depth, o :: os => do
    let v ← value depth o
    let vs ← values depth os
    .ok (v :: vs)
/-- Any members. -/
def valueMembers : Nat → List (Outline × Outline) → Except Fault (List (String × Value))
  | _, [] => .ok []
  | depth, (k, o) :: ms => do
    let k ← key k
    let v ← value depth o
    let vs ← valueMembers depth ms
    .ok ((k, v) :: vs)
end

/-! ## Documents -/

/-- One more than the number of levels that a document may open. -/
def maxDepth : Nat := 128

/-- Reads a whole text. -/
def run {α : Type} (read : Reader α) (text : String) : Except Fault α := do
  let (root, trailing) := Outline.scan text
  let a ← read maxDepth root
  Outline.atEnd trailing
  .ok a

end Reader

/-- The value of a text. -/
def Value.parse (text : String) : Except Fault Value :=
  Reader.run Reader.value text

end ApiClient.Json
