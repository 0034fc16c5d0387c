/-!
# Splitting texts

* `splitOn`: the segments between the occurrences of a separator; there is one more of them than
  there are separators.
* `joinWith`: segments with a separator between them, which undoes the split (`joinWith_splitOn`).
* `splitOn_append_cons`, `splitOn_of_not_mem`: texts with a separator between them split separately.
* `dropEnd`, `dropSuffix?`: text without a run of one character, or without a given text, at its
  end (`dropSuffix?_eq_some`).
-/

namespace ApiClient.Text

/-- The segments between the occurrences of `sep`. -/
def splitOn (sep : Char) : List Char → List (List Char)
  | [] => [[]]
  | c :: cs =>
    if c = sep then [] :: splitOn sep cs
    else
      match splitOn sep cs with
      | [] => [[c]]
      | s :: ss => (c :: s) :: ss

/-- Segments with `sep` between them. -/
def joinWith (sep : List Char) : List (List Char) → List Char
  | [] => []
  | [s] => s
  | s :: ss => s ++ sep ++ joinWith sep ss

theorem splitOn_ne_nil (sep : Char) (cs : List Char) : splitOn sep cs ≠ [] := by
  induction cs with
  | nil => simp [splitOn]
  | cons c cs ih =>
    unfold splitOn
    split
    · simp
    · split <;> simp

theorem joinWith_splitOn (sep : Char) (cs : List Char) : joinWith [sep] (splitOn sep cs) = cs := by
  induction cs with
  | nil => rfl
  | cons c cs ih =>
    obtain ⟨s, ss, h⟩ := List.exists_cons_of_ne_nil (splitOn_ne_nil sep cs)
    rw [h] at ih
    unfold splitOn
    split <;> rename_i hc
    · simp [h, joinWith, hc, ih]
    · cases ss <;> simp_all [joinWith]

theorem splitOn_append_cons (sep : Char) (as bs : List Char) :
    splitOn sep (as ++ sep :: bs) = splitOn sep as ++ splitOn sep bs := by
  induction as with
  | nil => simp [splitOn]
  | cons a as ih =>
    rw [List.cons_append, splitOn, splitOn, ih]
    split
    · rfl
    · obtain ⟨s, ss, h⟩ := List.exists_cons_of_ne_nil (splitOn_ne_nil sep as)
      rw [h]
      rfl

theorem splitOn_of_not_mem {sep : Char} {cs : List Char} (h : sep ∉ cs) :
    splitOn sep cs = [cs] := by
  induction cs with
  | nil => rfl
  | cons c cs ih =>
    rw [List.mem_cons, not_or] at h
    rw [splitOn, if_neg (Ne.symm h.1), ih h.2]

theorem not_mem_of_mem_splitOn {sep : Char} {cs s : List Char} (h : s ∈ splitOn sep cs) :
    sep ∉ s := by
  induction cs generalizing s with
  | nil => simp_all [splitOn]
  | cons c cs ih =>
    obtain ⟨t, ts, ht⟩ := List.exists_cons_of_ne_nil (splitOn_ne_nil sep cs)
    unfold splitOn at h
    split at h
    · rcases List.mem_cons.1 h with rfl | h
      · exact List.not_mem_nil
      · exact ih h
    · rename_i hc
      rw [ht] at h
      rcases List.mem_cons.1 h with rfl | h
      · rw [List.mem_cons, not_or]
        exact ⟨Ne.symm hc, ih (ht ▸ .head _)⟩
      · exact ih (ht ▸ .tail _ h)

/-- Drops the trailing occurrences of one character. -/
def dropEnd (c : Char) (cs : List Char) : List Char :=
  (cs.reverse.dropWhile (· == c)).reverse

/-- The text before a given ending, if it ends so. -/
def dropSuffix? (suffix s : List Char) : Option (List Char) :=
  if s.drop (s.length - suffix.length) = suffix then some (s.take (s.length - suffix.length))
  else none

theorem dropSuffix?_eq_some {suffix s t : List Char} :
    dropSuffix? suffix s = some t ↔ s = t ++ suffix := by
  unfold dropSuffix?
  constructor
  · intro h
    split at h
    · rename_i hdrop
      rw [← Option.some.inj h, ← hdrop, List.length_drop, Nat.sub_sub_self]
      · exact (List.take_append_drop _ s).symm
      · omega
    · cases h
  · rintro rfl
    simp

/-- The text after a given beginning, if it begins so. -/
def dropPrefix? : List Char → List Char → Option (List Char)
  | [], s => some s
  | _ :: _, [] => none
  | p :: ps, c :: cs => if p = c then dropPrefix? ps cs else none

/-- A text begins with another. -/
def beginsWith (start s : String) : Bool :=
  (dropPrefix? start.toList s.toList).isSome

/-- The number of bytes of a text's common encoding. -/
def byteLength (cs : List Char) : Nat :=
  cs.foldr (fun c n => c.utf8Size + n) 0

end ApiClient.Text
