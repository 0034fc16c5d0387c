import ApiClient.Text.Runs

/-!
# Blank characters

* `isBlank`: the characters that separate words, as the standard lists them.
* `trimStart`, `trimEnd`, `trim`: text without its outer blanks.
* `isBlankText`: text of blanks alone.
-/

namespace ApiClient.Text

/-- The switching points of the standard's `White_Space` property. -/
def blankRuns : List Nat :=
  [9, 14, 32, 33, 133, 134, 160, 161, 5760, 5761, 8192, 8203, 8232, 8234, 8239, 8240, 8287, 8288,
   12288, 12289]

/-- A blank is a character with the standard's `White_Space` property. -/
def isBlank (c : Char) : Bool :=
  inRuns blankRuns c.toNat

/-- Drops the leading blanks. -/
def dropBlanks (cs : List Char) : List Char :=
  cs.dropWhile isBlank

/-- Text without its leading blanks. -/
def trimStart (s : String) : String :=
  String.ofList (dropBlanks s.toList)

/-- Text without its trailing blanks. -/
def trimEnd (s : String) : String :=
  String.ofList (dropBlanks s.toList.reverse).reverse

/-- Text without its outer blanks. -/
def trim (s : String) : String :=
  trimEnd (trimStart s)

/-- Text that holds nothing but blanks. -/
def isBlankText (s : String) : Bool :=
  s.toList.all isBlank

end ApiClient.Text
