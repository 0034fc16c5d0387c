import ApiClient.Text.Blank
import ApiClient.Text.Lowercase
import ApiClient.Text.Split

/-!
# Markers

Markers are the annotations that steer generation.

* `Marker.parse`: the marker that a spelling stands for, if any.
* `MarkerSet`: a set of markers, kept in the order of `Marker.all`, so that sets with the same
  members are equal.
-/

namespace ApiClient

/-- An annotation of a type, property, parameter or method. -/
inductive Marker where
  /-- Left out of generation. -/
  | ignore
  /-- A parameter that its properties stand for. -/
  | expandInline
  /-- A date in universal time. -/
  | utcDate
  | httpGet
  | httpPost
  | httpPut
  | httpDelete
  /-- Readonly statics are emitted beside constants. -/
  | emitStaticReadonly
  deriving DecidableEq, Repr

namespace Marker

/-- All markers in the order in which sets list them. -/
def all : List Marker :=
  [ignore, expandInline, utcDate, httpGet, httpPost, httpPut, httpDelete, emitStaticReadonly]

theorem mem_all (m : Marker) : m ∈ all := by
  cases m <;> decide

/-- The spellings of each marker, in lower case and without the ending `attribute`. -/
def spellings : Marker → List String
  | ignore => ["ignore", "typescripterignore"]
  | expandInline => ["expandinline", "fromuri", "fromquery"]
  | utcDate => ["utcdate", "typescripterutcdate"]
  | httpGet => ["httpget"]
  | httpPost => ["httppost"]
  | httpPut => ["httpput"]
  | httpDelete => ["httpdelete"]
  | emitStaticReadonly =>
    ["emitstaticreadonly", "emitstaticreadonlymembers", "typescripteremitstaticreadonlymembers",
     "itypescripteremitstaticreadonlymembers"]

/-- The form in which spellings are compared: trimmed, in lower case, without one ending
`attribute`. -/
def normalize (name : String) : String :=
  let name := Text.lower (Text.trim name)
  match Text.dropSuffix? "attribute".toList name.toList with
  | some stem => String.ofList stem
  | none => name

/-- The marker that a spelling stands for (`parse` of `Marker`). -/
def parse (name : String) : Option Marker :=
  let name := normalize name
  all.find? fun m => m.spellings.contains name

end Marker

/-- A set of markers, listed in the order of `Marker.all`. -/
structure MarkerSet where
  toList : List Marker
  ordered : toList = Marker.all.filter (toList.contains ·)

namespace MarkerSet

@[ext] theorem ext {s t : MarkerSet} (h : s.toList = t.toList) : s = t := by
  cases s; cases t; cases h; rfl

/-- The set of the markers with a property. -/
def ofPredicate (p : Marker → Bool) : MarkerSet where
  toList := Marker.all.filter p
  ordered := by
    refine List.filter_congr fun m hm => ?_
    by_cases h : p m <;> simp [h, hm]

/-- The set without members. -/
def empty : MarkerSet := ⟨[], by simp⟩

/-- Membership. -/
def contains (s : MarkerSet) (m : Marker) : Bool :=
  s.toList.contains m

/-- No marker is a member. -/
def isEmpty (s : MarkerSet) : Bool :=
  s.toList.isEmpty

/-- The members of both sets. -/
def union (s t : MarkerSet) : MarkerSet :=
  ofPredicate fun m => s.contains m || t.contains m

/-- The set of the listed markers. -/
def ofList (ms : List Marker) : MarkerSet :=
  ofPredicate (ms.contains ·)

/-- The set of the markers that the names spell; other names are dropped (`from_names`). -/
def ofNames (names : List String) : MarkerSet :=
  ofList (names.filterMap Marker.parse)

@[simp] theorem contains_ofPredicate (p : Marker → Bool) (m : Marker) :
    (ofPredicate p).contains m = p m := by
  have := Marker.mem_all m
  by_cases h : p m <;> simp [contains, ofPredicate, h, this]

@[simp] theorem contains_empty (m : Marker) : empty.contains m = false := rfl

@[simp] theorem contains_ofList (ms : List Marker) (m : Marker) :
    (ofList ms).contains m = ms.contains m := by
  simp [ofList]

@[simp] theorem contains_union (s t : MarkerSet) (m : Marker) :
    (s.union t).contains m = (s.contains m || t.contains m) := by
  simp [union]

/-- A set is the set of its own list. -/
theorem ofList_toList (s : MarkerSet) : ofList s.toList = s :=
  MarkerSet.ext s.ordered.symm

end MarkerSet

end ApiClient
