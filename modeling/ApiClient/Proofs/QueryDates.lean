import ApiClient.Proofs.Mapping
import ApiClient.TypeScript.Url
import Mathlib.Logic.Function.Basic

/-!
# Dates in queries

A query has a fragment for each parameter. The fragment is a piece of generated code: it puts values
into a text when the request is made. A date is to be sent in its standard form, and of an array each
item is to be sent as an argument of its own. These are two rules, and the one for arrays puts the
items in as they are.

Results:
* `Piece`, `fragment`: the fragments as code; `codeAll_fragment` tells that `queryArgument` writes
  them so.
* `SendsDates`: whatever the value of a parameter is, its fragment puts all of it in, with each date
  converted; `sendsDates_iff`: it does so exactly if the type is no array of dates.
* `isQuery_withQuery_iff`: what every address is, and which of them send dates as they should.
* `not_isQuery_days`: some address does not.
-/

namespace ApiClient.TypeScript

/-! ## Values -/

/-- A value without items: one of the dates, its standard form, or anything else. -/
inductive Leaf where
  | date (i : Nat)
  | standard (i : Nat)
  | other (i : Nat)
  deriving DecidableEq, Repr

/-- The result of a conversion to standard form, if there is something to convert. -/
def Leaf.converted : Leaf → Leaf
  | .date i => .standard i
  | l => l

/-- A value of a parameter. -/
inductive Datum where
  | leaf (l : Leaf)
  | array (items : List Datum)

namespace Datum

mutual
/-- The values without items in order, also those of inner arrays. -/
def leaves : Datum → List Leaf
  | .leaf l => [l]
  | .array items => leavesAll items
/-- The values without items of a list. -/
def leavesAll : List Datum → List Leaf
  | [] => []
  | v :: vs => leaves v ++ leavesAll vs
end

/-- The items of an array. -/
def items : Datum → List Datum
  | .array items => items
  | .leaf _ => []

/-- The result of a conversion to standard form. -/
def standard : Datum → Datum
  | .leaf l => .leaf l.converted
  | .array items => .array items

theorem leavesAll_eq_flatMap (vs : List Datum) : leavesAll vs = vs.flatMap leaves := by
  induction vs with
  | nil => rfl
  | cons v vs ih => rw [leavesAll, ih, List.flatMap_cons]

end Datum

/-- The values of a type, as far as dates go: only dates and arrays of them hold dates. -/
def Admits : MappedType → Datum → Prop
  | .date _, v => ∃ i, v = .leaf (.date i)
  | .array t, v => ∃ items, v = .array items ∧ ∀ a ∈ items, Admits t a
  | _, v => ∀ l ∈ v.leaves, l.converted = l

/-! ## Fragments as code -/

/-- A piece of a template literal. -/
inductive Piece where
  | text (s : String)
  /-- The value of a variable. -/
  | value (name : String)
  /-- The standard form of the value of a variable. -/
  | standard (name : String)
  /-- The text of pieces for each item of an array, joined by `&`. -/
  | each (name item : String) (body : List Piece)

namespace Piece

mutual
/-- How a piece is written. -/
def code : Piece → String
  | .text s => s
  | .value name => interpolate name
  | .standard name => interpolate (name ++ ".toISOString()")
  | .each name item body =>
    interpolate (name ++ ".map(" ++ item ++ " => \x60" ++ codeAll body ++ "\x60).join('&')")
/-- How pieces are written one after the other. -/
def codeAll : List Piece → String
  | [] => ""
  | p :: ps => code p ++ codeAll ps
end

mutual
/-- The values that a piece puts in, where variables have values. -/
def inserted (scope : String → Datum) : Piece → List Datum
  | .text _ => []
  | .value name => [scope name]
  | .standard name => [(scope name).standard]
  | .each name item body =>
    (scope name).items.flatMap fun v => insertedAll (Function.update scope item v) body
/-- The values that pieces put in. -/
def insertedAll (scope : String → Datum) : List Piece → List Datum
  | [] => []
  | p :: ps => inserted scope p ++ insertedAll scope ps
end

end Piece

/-- The fragment of a parameter. -/
def fragment (name : String) : MappedType → List Piece
  | .date _ => [.text (name ++ "="), .standard name]
  | .array _ => [.each name "x" [.text (name ++ "="), .value "x"]]
  | _ => [.text (name ++ "="), .value name]

/-- Whatever the value of the parameter is, the pieces put all of it in, in order, and each date in
standard form. -/
def SendsDates (name : String) (t : MappedType) (ps : List Piece) : Prop :=
  ∀ scope, Admits t (scope name) →
    (Piece.insertedAll scope ps).flatMap Datum.leaves =
      (scope name).leaves.map Leaf.converted

/-- The address with a query that has a fragment for each parameter, in order. -/
def address (url : String) (ps : List (String × MappedType)) : String :=
  if ps.isEmpty then url
  else url ++ "?" ++ "&".intercalate (ps.map fun p => Piece.codeAll (fragment p.1 p.2))

/-- The text is the address with a query of the parameters, each of which is sent with its dates in
standard form. -/
structure IsQuery (url : String) (ps : List (String × MappedType)) (text : String) : Prop where
  text_eq : text = address url ps
  dates : ∀ p ∈ ps, SendsDates p.1 p.2 (fragment p.1 p.2)

variable {name : String} {t : MappedType} {v : Datum}

/-! ## Fragments -/

theorem codeAll_fragment (name : String) (t : MappedType) :
    Piece.codeAll (fragment name t) = queryArgument name t := by
  cases t with
  | array element =>
    have htext : name ++ ".map(" ++ "x" ++ " => \x60" ++ (name ++ "=" ++ interpolate "x") ++
        "\x60).join('&')" = name ++ ".map(x => \x60" ++ name ++ "=" ++ interpolate "x" ++
          "\x60).join('&')" :=
      String.toList_inj.1 (by simp)
    simp only [fragment, Piece.codeAll, Piece.code, queryArgument, String.append_empty, htext]
  | excluded | primitive | date | model | any =>
    simp [fragment, Piece.codeAll, Piece.code, queryArgument]

/-- Of an array the items are put in as they are. -/
theorem insertedAll_fragment_array (scope : String → Datum) (element : MappedType) :
    Piece.insertedAll scope (fragment name (.array element)) = (scope name).items := by
  simp [fragment, Piece.insertedAll, Piece.inserted]

/-! ## Dates in values -/

theorem converted_ne_date {l : Leaf} {i : Nat} : l.converted ≠ .date i := by
  cases l <;> simp [Leaf.converted]

/-- A value of another type has nothing to convert. -/
theorem converted_of_admits (h : t.mentionsDate = false) (hv : Admits t v) :
    ∀ l ∈ v.leaves, l.converted = l := by
  induction t generalizing v with
  | date utc => simp [MappedType.mentionsDate, MappedType.element] at h
  | array t ih =>
    obtain ⟨items, rfl, hitems⟩ := hv
    intro l hl
    rw [Datum.leaves, Datum.leavesAll_eq_flatMap] at hl
    obtain ⟨a, ha, hl⟩ := List.mem_flatMap.1 hl
    exact ih h (hitems a ha) l hl
  | excluded | primitive | model | any => exact hv

theorem exists_admits_date (h : t.mentionsDate = true) :
    ∃ v, Admits t v ∧ Leaf.date 0 ∈ v.leaves := by
  induction t with
  | date utc => exact ⟨.leaf (.date 0), ⟨0, rfl⟩, .head _⟩
  | array t ih =>
    obtain ⟨v, hv, hdate⟩ := ih h
    refine ⟨.array [v], ⟨[v], rfl, fun a ha => ?_⟩, List.mem_append_left _ hdate⟩
    rwa [List.mem_singleton.1 ha]
  | excluded | primitive | model | any => simp [MappedType.mentionsDate, MappedType.element] at h

/-! ## Dates in queries -/

/-- Dates of an array are put in without a conversion. -/
theorem not_sendsDates_array {element : MappedType} (h : element.mentionsDate = true) :
    ¬ SendsDates name (.array element) (fragment name (.array element)) := by
  intro hsends
  obtain ⟨v, hv, hmem⟩ := exists_admits_date h
  have hsent := hsends (fun _ => .array [v])
    ⟨[v], rfl, fun a ha => by rwa [List.mem_singleton.1 ha]⟩
  rw [insertedAll_fragment_array] at hsent
  have hconverted : Leaf.date 0 ∈ (Datum.array [v]).leaves.map Leaf.converted := by
    rw [← hsent]
    exact List.mem_flatMap.2 ⟨v, .head _, hmem⟩
  obtain ⟨l, _, hl⟩ := List.mem_map.1 hconverted
  exact converted_ne_date hl

/-- Other values are put in as they should be. -/
theorem sendsDates_of_not_isDateArray (h : t.isDateArray = false) :
    SendsDates name t (fragment name t) := by
  intro scope hv
  cases t with
  | date utc =>
    obtain ⟨i, hi⟩ := hv
    simp [fragment, Piece.insertedAll, Piece.inserted, Datum.standard, Datum.leaves, hi]
  | array element =>
    obtain ⟨items, hitems, _⟩ := id hv
    have hsame := converted_of_admits h hv
    rw [List.map_congr_left hsame, List.map_id', insertedAll_fragment_array, hitems, Datum.items,
      Datum.leaves, Datum.leavesAll_eq_flatMap]
  | excluded | primitive | model | any =>
    rw [List.map_congr_left (converted_of_admits rfl hv), List.map_id']
    simp [fragment, Piece.insertedAll, Piece.inserted]

/-- The fragment of a parameter sends dates as it should, unless the parameter is an array of
dates. -/
theorem sendsDates_iff (name : String) (t : MappedType) :
    SendsDates name t (fragment name t) ↔ t.isDateArray = false := by
  refine ⟨fun h => ?_, sendsDates_of_not_isDateArray⟩
  cases t with
  | array element =>
    rw [← Bool.not_eq_true]
    intro hdate
    have helement : element.mentionsDate = true := hdate
    exact not_sendsDates_array helement h
  | excluded | primitive | date | model | any => rfl

theorem withQuery_eq (url : String) (ps : List (String × MappedType)) :
    withQuery url ps = address url ps := by
  unfold address
  simp only [codeAll_fragment]
  cases ps with
  | nil => rfl
  | cons p ps => rfl

/-- Without parameters an address stays as it is, and otherwise a query follows with a fragment for
each of them in order. The fragments send dates as they should exactly if no parameter is an array
of dates. -/
theorem isQuery_withQuery_iff (url : String) (ps : List (String × MappedType)) :
    withQuery url ps = address url ps ∧
      (IsQuery url ps (withQuery url ps) ↔ ∀ p ∈ ps, p.2.isDateArray = false) := by
  refine ⟨withQuery_eq url ps, fun h p hp => (sendsDates_iff _ _).1 (h.dates p hp), fun h => ?_⟩
  exact ⟨withQuery_eq url ps, fun p hp => (sendsDates_iff _ _).2 (h p hp)⟩

/-- The dates of an array are put into the query as they are. -/
theorem not_isQuery_days :
    ¬ IsQuery "base" [("days", .array (.date false))]
      (withQuery "base" [("days", .array (.date false))]) := by
  intro h
  have hsends := (sendsDates_iff _ _).1 (h.dates _ (.head _))
  exact absurd hsends (by decide)

end ApiClient.TypeScript
