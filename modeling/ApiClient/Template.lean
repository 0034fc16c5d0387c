import ApiClient.Json.Value

/-!
# Templates

A template is text with places for values of a JSON context, parts that depend on a condition, and
parts that are repeated for the items of a list.

* `Template`: a list of parts.
* `Template.render`: the text for a context. A place whose value is missing is a fault, and so is a
  repetition over what is no list or object.
-/

namespace ApiClient

/-- A value of the context, by the keys that lead to it; no key leads to the context itself. -/
abbrev Template.Path := List String

/-- A part of a template. -/
inductive Template.Part where
  | text (s : String)
  /-- The value at a path. -/
  | value (path : Template.Path)
  /-- One of two lists of parts, by the truth of the value at a path. -/
  | choice (path : Template.Path) (yes no : List Template.Part)
  /-- Parts for every item of the value at a path; others if there is none, unless absent. -/
  | each (path : Template.Path) (body : List Template.Part)
    (otherwise : Option (List Template.Part))
  /-- Parts for the value at a path, if that is true; others if it is not, unless absent. -/
  | within (path : Template.Path) (body : List Template.Part)
    (otherwise : Option (List Template.Part))

/-- A template. -/
abbrev Template := List Template.Part

namespace Template

/-- Why a template cannot be rendered. -/
inductive Fault where
  | missing (path : Path)
  | notIterable (path : Path)
  | malformed
  | unknown (template : String)
  deriving DecidableEq, Repr

/-- The wording of a fault. -/
def Fault.message : Fault → String
  | .missing path => "missing variable " ++ ".".intercalate path
  | .notIterable path => "no items at " ++ ".".intercalate path
  | .malformed => "malformed template"
  | .unknown template => "unknown template " ++ template

/-! ## Values -/

/-- The value that keys lead to; a key of a list is the number of an item. -/
def find? : Path → Json.Value → Option Json.Value
  | [], v => some v
  | key :: keys, v =>
    match v with
    | .object _ => (v.get? key).bind (find? keys)
    | .array items => (key.toNat?.bind (items[·]?)).bind (find? keys)
    | _ => none

/-- Null, zero, and empty texts, lists and objects are not true; a double counts as zero if it is
too small to have a full mantissa. -/
def isTrue : Json.Value → Bool
  | .null => false
  | .bool b => b
  | .number (.whole n) => n != 0
  | .number (.double x) => decide (Nat.pow 2 52 ≤ x.mantissa)
  | .string s => !s.isEmpty
  | .array items => !items.isEmpty
  | .object members => !members.isEmpty

/-- The value at a path is there and true. -/
def holds (path : Path) (context : Json.Value) : Bool :=
  (find? path context).any isTrue

mutual
/-- The text of a value: of a string its characters, of null nothing. -/
def display : Json.Value → String
  | .null => ""
  | .bool b => if b then "true" else "false"
  | .number n => n.display
  | .string s => s
  | .array items => "[" ++ ", ".intercalate (showAll items) ++ "]"
  | .object _ => "[object]"
/-- The texts of values. -/
def showAll : List Json.Value → List String
  | [] => []
  | v :: vs => display v :: showAll vs
end

/-- The items of a list or of an object. -/
def items? : Json.Value → Option (List Json.Value)
  | .array items => some items
  | .object members => some (members.map (·.2))
  | _ => none

/-! ## Rendering -/

/-- The texts for items one after the other. -/
def concat (f : Json.Value → Except Fault String) : List Json.Value → Except Fault String
  | [] => .ok ""
  | v :: vs => do
    let s ← f v
    let t ← concat f vs
    .ok (s ++ t)

mutual
/-- The text of a part. -/
def renderPart : Part → Json.Value → Except Fault String
  | .text s, _ => .ok s
  | .value path, context =>
    match find? path context with
    | some v => .ok (display v)
    | none => .error (.missing path)
  | .choice path yes no, context =>
    if holds path context then renderParts yes context else renderParts no context
  | .each path body otherwise, context =>
    match (find? path context).bind items? with
    | some (item :: items) => concat (renderParts body) (item :: items)
    | some [] => renderElse otherwise (.ok "") context
    | none => renderElse otherwise (.error (.notIterable path)) context
  | .within path body otherwise, context =>
    match find? path context with
    | some v =>
      if isTrue v then renderParts body v else renderElse otherwise (.error (.missing path)) context
    | none => renderElse otherwise (.error (.missing path)) context
/-- The text of the parts for nothing, or what stands for it. -/
def renderElse : Option (List Part) → Except Fault String → Json.Value → Except Fault String
  | some parts, _, context => renderParts parts context
  | none, absent, _ => absent
/-- The text of parts one after the other. -/
def renderParts : List Part → Json.Value → Except Fault String
  | [], _ => .ok ""
  | p :: ps, context => do
    let s ← renderPart p context
    let t ← renderParts ps context
    .ok (s ++ t)
end

/-- The text of a template for a context. -/
def render (t : Template) (context : Json.Value) : Except Fault String :=
  renderParts t context

end Template

end ApiClient
