import ApiClient.Report.Format
import Mathlib.Algebra.GroupWithZero.Nat
import Mathlib.Data.List.Nodup

/-!
# The indented form and the form for reading

Without colours, the form for reading of a report has the layout of indented JSON, but nothing is
escaped in its texts. The two are the same text for some values, and which ones can be told from the
texts in them: an escape is longer than the character that it stands for.

Results:
* `Indented`: the rules of indented JSON; `indented_iff`: `prettyAt` writes by them.
* `Value.canonical_eq_self_iff`: the values whose objects are maps stay as they are.
* `displayAt_array`, `displayAt_object`: the form for reading, which is written line by line, has the
  layout of indented JSON.
* `length_prettyAt`: indented JSON is longer than the form for reading by what the escapes take.
* `render_pretty_eq_json_iff`: the two forms are the same exactly for the values without anything
  to escape.
-/

namespace ApiClient.Json

/-! ## Specification -/

/-- A character that a string literal holds as it is. -/
def IsPlainChar (c : Char) : Prop :=
  c ≠ '"' ∧ c ≠ '\\' ∧ 0x20 ≤ c.toNat

instance (c : Char) : Decidable (IsPlainChar c) :=
  inferInstanceAs (Decidable (_ ∧ _ ∧ _))

namespace Value

mutual
/-- The texts in a value: strings, and keys of objects. -/
def texts : Value → List String
  | .string s => [s]
  | .array items => itemTexts items
  | .object members => memberTexts members
  | .null | .bool _ | .number _ => []
/-- The texts in the items of an array. -/
def itemTexts : List Value → List String
  | [] => []
  | v :: vs => texts v ++ itemTexts vs
/-- The texts in the members of an object. -/
def memberTexts : List (String × Value) → List String
  | [] => []
  | (k, v) :: ms => k :: texts v ++ memberTexts ms
end

/-- No text in the value has a character that is escaped. -/
def IsPlain (v : Value) : Prop :=
  ∀ s ∈ v.texts, ∀ c ∈ s.toList, IsPlainChar c

instance (v : Value) : Decidable v.IsPlain :=
  inferInstanceAs (Decidable (∀ s ∈ v.texts, _))

mutual
/-- The lists of keys of all objects in a value. -/
def keyLists : Value → List (List String)
  | .array items => itemKeyLists items
  | .object members => members.map (·.1) :: memberKeyLists members
  | .null | .bool _ | .number _ | .string _ => []
/-- The lists of keys in the items of an array. -/
def itemKeyLists : List Value → List (List String)
  | [] => []
  | v :: vs => keyLists v ++ itemKeyLists vs
/-- The lists of keys in the members of an object. -/
def memberKeyLists : List (String × Value) → List (List String)
  | [] => []
  | (_, v) :: ms => keyLists v ++ memberKeyLists ms
end

/-- All objects in the value are maps: their members are sorted by key, and no key comes twice. -/
def HasMaps (v : Value) : Prop :=
  ∀ keys ∈ v.keyLists, keys.Pairwise (· < ·)

instance (v : Value) : Decidable v.HasMaps :=
  inferInstanceAs (Decidable (∀ keys ∈ v.keyLists, _))

/-- The lines of entries on a level. A comma ends each of them but the last one. -/
def entryLines (level : Nat) : List String → String
  | [] => ""
  | [entry] => indentation level ++ entry ++ "\n"
  | entry :: next :: entries =>
    indentation level ++ entry ++ ",\n" ++ entryLines level (next :: entries)

/-- The rules of indented JSON, for a value on a level. Entries stand on lines of their own, two
blanks deeper than the brackets around them; without entries the brackets stay together. -/
inductive Indented : Nat → Value → String → Prop where
  | null {level : Nat} : Indented level .null "null"
  | bool {level : Nat} {b : Bool} : Indented level (.bool b) (if b then "true" else "false")
  | number {level : Nat} {n : Number} : Indented level (.number n) n.display
  | string {level : Nat} {s : String} : Indented level (.string s) (quote s)
  | emptyArray {level : Nat} : Indented level (.array []) "[]"
  | emptyObject {level : Nat} : Indented level (.object []) "\x7b\x7d"
  | array {level : Nat} {entries : List (Value × String)} (hne : entries ≠ [])
    (h : ∀ e ∈ entries, Indented (level + 1) e.1 e.2) :
    Indented level (.array (entries.map (·.1)))
      ("[\n" ++ entryLines (level + 1) (entries.map (·.2)) ++ indentation level ++ "]")
  | object {level : Nat} {entries : List (String × Value × String)} (hne : entries ≠ [])
    (h : ∀ e ∈ entries, Indented (level + 1) e.2.1 e.2.2) :
    Indented level (.object (entries.map fun e => (e.1, e.2.1)))
      ("\x7b\n" ++ entryLines (level + 1) (entries.map fun e => quote e.1 ++ ": " ++ e.2.2)
        ++ indentation level ++ "\x7d")

/-! ## Values -/

theorem induction {motive : Value → Prop} (null : motive .null) (bool : ∀ b, motive (.bool b))
    (number : ∀ n, motive (.number n)) (string : ∀ s, motive (.string s))
    (array : ∀ items, (∀ v ∈ items, motive v) → motive (.array items))
    (object : ∀ members, (∀ m ∈ members, motive m.2) → motive (.object members)) :
    ∀ v, motive v
  | .null => null
  | .bool b => bool b
  | .number n => number n
  | .string s => string s
  | .array items => array items fun v _ =>
    induction null bool number string array object v
  | .object members => object members fun m hm =>
    have : sizeOf m.2 < 1 + sizeOf members := by
      have hlt := List.sizeOf_lt_of_mem hm
      cases m
      simp only [Prod.mk.sizeOf_spec] at hlt ⊢
      omega
    induction null bool number string array object m.2

/-- A function of lists that treats the items one after the other. -/
theorem eq_flatMap_of_cons {α β : Type} {f : List α → List β} {g : α → List β} (hnil : f [] = [])
    (hcons : ∀ a as, f (a :: as) = g a ++ f as) (as : List α) : f as = as.flatMap g := by
  induction as with
  | nil => exact hnil
  | cons a as ih => rw [hcons, ih, List.flatMap_cons]

/-- A function of lists that turns each item into one. -/
theorem eq_map_of_cons {α β : Type} {f : List α → List β} {g : α → β} (hnil : f [] = [])
    (hcons : ∀ a as, f (a :: as) = g a :: f as) (as : List α) : f as = as.map g := by
  rw [List.map_eq_flatMap]
  exact eq_flatMap_of_cons hnil hcons as

section Members

variable (items : List Value) (members : List (String × Value)) (level : Nat)

@[simp] theorem texts_array : texts (.array items) = items.flatMap texts :=
  eq_flatMap_of_cons (f := itemTexts) rfl (fun _ _ => rfl) items

@[simp] theorem texts_object :
    texts (.object members) = members.flatMap fun m => m.1 :: m.2.texts :=
  eq_flatMap_of_cons (f := memberTexts) rfl (fun _ _ => rfl) members

@[simp] theorem keyLists_array : keyLists (.array items) = items.flatMap keyLists :=
  eq_flatMap_of_cons (f := itemKeyLists) rfl (fun _ _ => rfl) items

@[simp] theorem keyLists_object :
    keyLists (.object members) = members.map (·.1) :: members.flatMap fun m => m.2.keyLists := by
  rw [keyLists, eq_flatMap_of_cons (f := memberKeyLists) rfl fun _ _ => rfl]

@[simp] theorem canonical_array : canonical (.array items) = .array (items.map canonical) := by
  rw [canonical, eq_map_of_cons (f := canonicalItems) rfl fun _ _ => rfl]

@[simp] theorem canonical_object :
    canonical (.object members) =
      .object (sortMembers (members.map fun m => (m.1, m.2.canonical))) := by
  rw [canonical, eq_map_of_cons (f := canonicalMembers) rfl fun _ _ => rfl]

@[simp] theorem prettyAt_array :
    prettyAt level (.array items) =
      enclose "[" "]" level (items.map (prettyAt (level + 1))) := by
  rw [prettyAt, eq_map_of_cons (f := prettyItems (level + 1)) rfl fun _ _ => rfl]

@[simp] theorem prettyAt_object :
    prettyAt level (.object members) = enclose "\x7b" "\x7d" level
      (members.map fun m => quote m.1 ++ ": " ++ prettyAt (level + 1) m.2) := by
  rw [prettyAt, eq_map_of_cons (f := prettyMembers (level + 1)) rfl fun _ _ => rfl]

end Members

/-! ## Objects that are maps -/

variable {v : Value} {items : List Value} {members : List (String × Value)}

theorem hasMaps_array_iff : (array items).HasMaps ↔ ∀ v ∈ items, v.HasMaps := by
  simp only [HasMaps, keyLists_array, List.forall_mem_flatMap]

theorem hasMaps_object_iff :
    (object members).HasMaps ↔
      (members.map (·.1)).Pairwise (· < ·) ∧ ∀ m ∈ members, m.2.HasMaps := by
  simp only [HasMaps, keyLists_object, List.forall_mem_cons, List.forall_mem_flatMap]

/-- The members after others, the last one of each key. -/
def keepLast (kept members : List (String × Value)) : List (String × Value) :=
  members.foldl (fun kept m => kept.filter (·.1 != m.1) ++ [m]) kept

theorem keepLast_of_nodup {kept : List (String × Value)}
    (h : ((kept ++ members).map (·.1)).Nodup) : keepLast kept members = kept ++ members := by
  induction members generalizing kept with
  | nil => exact (List.append_nil kept).symm
  | cons m ms ih =>
    have hkept : kept.filter (·.1 != m.1) = kept := by
      refine List.filter_eq_self.2 fun m' hm' => bne_iff_ne.2 fun he => ?_
      rw [List.map_append, List.map_cons] at h
      exact (List.nodup_append.1 h).2.2 _ (List.mem_map_of_mem hm') _ (.head _) he
    rw [List.append_cons] at h ⊢
    rw [keepLast, List.foldl_cons, hkept]
    exact ih h

theorem nodup_keepLast {kept : List (String × Value)} (h : (kept.map (·.1)).Nodup) :
    ((keepLast kept members).map (·.1)).Nodup := by
  induction members generalizing kept with
  | nil => exact h
  | cons m ms ih =>
    refine ih ?_
    rw [List.map_append, List.nodup_append]
    refine ⟨h.sublist (List.filter_sublist.map _), List.nodup_singleton _, ?_⟩
    rintro _ ha _ hb rfl
    obtain ⟨m', hm', he⟩ := List.mem_map.1 ha
    rw [List.mem_singleton.1 hb] at he
    exact bne_iff_ne.1 (List.mem_filter.1 hm').2 he

theorem mem_of_mem_keepLast {kept : List (String × Value)} {m : String × Value}
    (h : m ∈ keepLast kept members) : m ∈ kept ∨ m ∈ members := by
  induction members generalizing kept with
  | nil => exact .inl h
  | cons m' ms ih =>
    rcases ih h with h | h
    · rcases List.mem_append.1 h with h | h
      · exact .inl (List.mem_filter.1 h).1
      · exact .inr (List.mem_singleton.1 h ▸ .head _)
    · exact .inr (.tail _ h)

theorem sortMembers_eq (members : List (String × Value)) :
    sortMembers members = Text.sortByText (·.1) (keepLast [] members) :=
  rfl

theorem sortMembers_eq_self (h : (members.map (·.1)).Pairwise (· < ·)) :
    sortMembers members = members := by
  have hnodup : (members.map (·.1)).Nodup := h.imp fun hlt => String.ne_of_lt hlt
  have hkept : keepLast [] members = members := keepLast_of_nodup hnodup
  rw [List.pairwise_map] at h
  rw [sortMembers_eq, hkept]
  exact List.mergeSort_of_pairwise (h.imp fun hlt => Text.atMost_iff.2 (Std.le_of_lt hlt))

theorem sortMembers_pairwise (members : List (String × Value)) :
    ((sortMembers members).map (·.1)).Pairwise (· < ·) :=
  List.pairwise_map.2 (Text.sortByText_pairwise_lt (nodup_keepLast List.nodup_nil))

theorem mem_of_mem_sortMembers {m : String × Value} (h : m ∈ sortMembers members) :
    m ∈ members :=
  (mem_of_mem_keepLast ((Text.sortByText_perm _ _).mem_iff.1 h)).resolve_left List.not_mem_nil

theorem hasMaps_canonical (v : Value) : v.canonical.HasMaps := by
  induction v using Value.induction with
  | null | bool | number | string => simp [HasMaps, canonical, keyLists]
  | array items ih =>
    rw [canonical_array, hasMaps_array_iff, List.forall_mem_map]
    exact ih
  | object members ih =>
    rw [canonical_object, hasMaps_object_iff]
    refine ⟨sortMembers_pairwise _, fun m hm => ?_⟩
    obtain ⟨m', hm', rfl⟩ := List.mem_map.1 (mem_of_mem_sortMembers hm)
    exact ih m' hm'

/-- The values that canonical ones are: those whose objects are maps. -/
theorem canonical_eq_self_iff : v.canonical = v ↔ v.HasMaps := by
  refine ⟨fun h => h ▸ hasMaps_canonical v, fun h => ?_⟩
  induction v using Value.induction with
  | null | bool | number | string => rfl
  | array items ih =>
    rw [canonical_array]
    refine congrArg _ ((List.map_congr_left fun v hv => ?_).trans (List.map_id _))
    exact ih v hv (hasMaps_array_iff.1 h v hv)
  | object members ih =>
    obtain ⟨hkeys, hmembers⟩ := hasMaps_object_iff.1 h
    have hsame : (members.map fun m => (m.1, m.2.canonical)) = members := by
      refine (List.map_congr_left fun m hm => ?_).trans (List.map_id _)
      exact Prod.ext rfl (ih m hm (hmembers m hm))
    rw [canonical_object, hsame, sortMembers_eq_self hkeys]

/-! ## Entries -/

theorem intercalate_entries (level : Nat) (entry : String) (entries : List String) :
    ",\n".intercalate ((entry :: entries).map (indentation level ++ ·)) ++ "\n" =
      entryLines level (entry :: entries) := by
  induction entries generalizing entry with
  | nil => simp [entryLines, String.intercalate_singleton]
  | cons next entries ih =>
    rw [entryLines, ← ih, List.map_cons, List.map_cons, String.intercalate_cons_cons,
      String.append_assoc]

theorem enclose_eq {entries : List String} (h : entries ≠ []) (left right : String)
    (level : Nat) :
    enclose left right level entries =
      left ++ "\n" ++ entryLines (level + 1) entries ++ indentation level ++ right := by
  cases entries with
  | nil => contradiction
  | cons entry entries =>
    rw [← intercalate_entries]
    simp only [enclose, String.append_assoc]

theorem entryLines_cons (level : Nat) (entry : String) (entries : List String) :
    entryLines level (entry :: entries) =
      closeEntry (indentation level ++ entry) entries.isEmpty ++ entryLines level entries := by
  cases entries with
  | nil => simp [entryLines, closeEntry]
  | cons next entries => simp [entryLines, closeEntry, String.append_assoc]

theorem closeEntry_append (out entry : String) (last : Bool) :
    closeEntry (out ++ entry) last = out ++ closeEntry entry last := by
  cases last <;> simp [closeEntry, String.append_assoc]

/-! ## Writing -/

/-- The form for reading of a value that stands on a level. -/
def displayAt (colored : Bool) (level : Nat) (v : Value) : String :=
  writeValue colored "" level v

/-- The value is written behind what is there. -/
def WritesBehind (colored : Bool) (level : Nat) (v : Value) : Prop :=
  ∀ out, writeValue colored out level v = out ++ displayAt colored level v

variable {colored : Bool} {level : Nat}

/-- The loop over the items writes one line for each. -/
theorem writeItems_eq (h : ∀ v ∈ items, WritesBehind colored level v) (out : String) :
    writeItems colored out level items =
      out ++ entryLines level (items.map (displayAt colored level)) := by
  induction items generalizing out with
  | nil => simp [writeItems, entryLines]
  | cons v vs ih =>
    rw [writeItems, ih fun w hw => h w (.tail _ hw), h v (.head _), List.map_cons,
      entryLines_cons, List.isEmpty_map]
    simp only [String.append_assoc, closeEntry_append]

/-- The loop over the members writes one line for each. -/
theorem writeMembers_eq (h : ∀ m ∈ members, WritesBehind colored level m.2) (out : String) :
    writeMembers colored out level members = out ++ entryLines level (members.map fun m =>
      paintQuoted .boldBlue colored m.1 ++ ": " ++ displayAt colored level m.2) := by
  induction members generalizing out with
  | nil => simp [writeMembers, entryLines]
  | cons m ms ih =>
    rw [writeMembers, ih fun w hw => h w (.tail _ hw), h m (.head _), List.map_cons,
      entryLines_cons, List.isEmpty_map]
    simp only [String.append_assoc, closeEntry_append]

theorem writeValue_array (h : ∀ v ∈ items, WritesBehind colored (level + 1) v) (out : String) :
    writeValue colored out level (.array items) =
      out ++ enclose "[" "]" level (items.map (displayAt colored (level + 1))) := by
  cases items with
  | nil => rfl
  | cons v vs =>
    rw [writeValue, if_neg (by simp), writeItems_eq h, enclose_eq (by simp)]
    simp only [String.append_assoc]
    rfl

theorem writeValue_object (h : ∀ m ∈ members, WritesBehind colored (level + 1) m.2)
    (out : String) :
    writeValue colored out level (.object members) =
      out ++ enclose "\x7b" "\x7d" level (members.map fun m =>
        paintQuoted .boldBlue colored m.1 ++ ": " ++ displayAt colored (level + 1) m.2) := by
  cases members with
  | nil => rfl
  | cons m ms =>
    rw [writeValue, if_neg (by simp), writeMembers_eq h, enclose_eq (by simp)]
    simp only [String.append_assoc]
    rfl

theorem writesBehind (colored : Bool) (v : Value) (level : Nat) :
    WritesBehind colored level v := by
  induction v using Value.induction generalizing level with
  | null | bool | number | string => intro out; simp [displayAt, writeValue]
  | array items ih =>
    intro out
    rw [displayAt, writeValue_array fun v hv => ih v hv (level + 1),
      writeValue_array fun v hv => ih v hv (level + 1), String.empty_append]
  | object members ih =>
    intro out
    rw [displayAt, writeValue_object fun m hm => ih m hm (level + 1),
      writeValue_object fun m hm => ih m hm (level + 1), String.empty_append]

/-- The form for reading of an array has the layout of indented JSON. -/
theorem displayAt_array (colored : Bool) (level : Nat) (items : List Value) :
    displayAt colored level (.array items) =
      enclose "[" "]" level (items.map (displayAt colored (level + 1))) := by
  rw [displayAt, writeValue_array fun v _ => writesBehind colored v (level + 1),
    String.empty_append]

/-- The form for reading of an object has the layout of indented JSON. -/
theorem displayAt_object (colored : Bool) (level : Nat) (members : List (String × Value)) :
    displayAt colored level (.object members) = enclose "\x7b" "\x7d" level (members.map fun m =>
      paintQuoted .boldBlue colored m.1 ++ ": " ++ displayAt colored (level + 1) m.2) := by
  rw [displayAt, writeValue_object fun m _ => writesBehind colored m.2 (level + 1),
    String.empty_append]

/-! ## Indented JSON -/

/-- Indented JSON is written by the rules. -/
theorem indented_prettyAt (v : Value) (level : Nat) : Indented level v (prettyAt level v) := by
  induction v using Value.induction generalizing level with
  | null => exact .null
  | bool b => exact .bool
  | number n => exact .number
  | string s => exact .string
  | array items ih =>
    cases items with
    | nil => exact .emptyArray
    | cons item items =>
      let entries := (item :: items).map fun v => (v, prettyAt (level + 1) v)
      have hentries : ∀ e ∈ entries, Indented (level + 1) e.1 e.2 :=
        List.forall_mem_map.2 fun v hv => ih v hv (level + 1)
      have hrule := Indented.array (List.cons_ne_nil _ _) hentries
      rw [prettyAt_array, enclose_eq (by simp)]
      simpa [Function.comp_def] using hrule
  | object members ih =>
    cases members with
    | nil => exact .emptyObject
    | cons member members =>
      let entries := (member :: members).map fun m => (m.1, m.2, prettyAt (level + 1) m.2)
      have hentries : ∀ e ∈ entries, Indented (level + 1) e.2.1 e.2.2 :=
        List.forall_mem_map.2 fun m hm => ih m hm (level + 1)
      have hrule := Indented.object (List.cons_ne_nil _ _) hentries
      rw [prettyAt_object, enclose_eq (by simp)]
      simpa [Function.comp_def] using hrule

/-- The rules leave no choice. -/
theorem indented_iff {level : Nat} {text : String} :
    Indented level v text ↔ text = prettyAt level v := by
  refine ⟨fun h => ?_, fun h => h ▸ indented_prettyAt v level⟩
  induction h with
  | null | bool | number | string | emptyArray | emptyObject => rfl
  | @array level entries hne _ ih =>
    have hentries : (entries.map (·.1)).map (prettyAt (level + 1)) = entries.map (·.2) := by
      rw [List.map_map]
      exact List.map_congr_left fun e he => (ih e he).symm
    rw [prettyAt_array, hentries, enclose_eq (by simpa using hne)]
    rfl
  | @object level entries hne _ ih =>
    have hentries : ((entries.map fun e => (e.1, e.2.1)).map fun m =>
        quote m.1 ++ ": " ++ prettyAt (level + 1) m.2) =
          entries.map fun e => quote e.1 ++ ": " ++ e.2.2 := by
      rw [List.map_map]
      exact List.map_congr_left fun e he => congrArg _ (ih e he).symm
    rw [prettyAt_object, hentries, enclose_eq (by simpa using hne)]
    rfl

/-! ## What escapes take -/

theorem length_entryLines {α : Type} {as : List α} {f g : α → String} {extra : α → Nat}
    (h : ∀ a ∈ as, (f a).length = (g a).length + extra a) (level : Nat) :
    (entryLines level (as.map f)).length =
      (entryLines level (as.map g)).length + (as.map extra).sum := by
  induction as with
  | nil => rfl
  | cons a as ih =>
    have ha := h a (.head _)
    have has := ih fun a ha => h a (.tail _ ha)
    cases as with
    | nil => simp [entryLines, ha]; omega
    | cons b bs =>
      simp only [List.map_cons, entryLines, String.length_append, List.sum_cons] at has ⊢
      omega

theorem length_enclose {α : Type} {as : List α} {f g : α → String} {extra : α → Nat}
    (h : ∀ a ∈ as, (f a).length = (g a).length + extra a) (left right : String) (level : Nat) :
    (enclose left right level (as.map f)).length =
      (enclose left right level (as.map g)).length + (as.map extra).sum := by
  cases as with
  | nil => rfl
  | cons a as =>
    rw [enclose_eq (by simp), enclose_eq (by simp)]
    simp only [String.length_append, length_entryLines h]
    omega

end Value

/-- The number of characters that the escapes of a text add to it. -/
def escapes (s : String) : Nat :=
  (s.toList.map fun c => (escape c).length - 1).sum

theorem escape_of_isPlainChar {c : Char} (h : IsPlainChar c) : escape c = [c] := by
  obtain ⟨hquote, hslash, hcontrol⟩ := h
  unfold escape
  split <;> simp_all

/-- An escape takes two characters at least. -/
theorem two_le_length_escape {c : Char} (h : ¬ IsPlainChar c) : 2 ≤ (escape c).length := by
  unfold escape
  split
  case h_8 hquote hslash _ _ _ _ _ =>
    have hcontrol : c.toNat < 0x20 := by
      by_contra hge
      exact h ⟨hquote, hslash, Nat.le_of_not_lt hge⟩
    simp [hcontrol]
  all_goals simp

theorem length_escape (c : Char) : (escape c).length = 1 + ((escape c).length - 1) := by
  by_cases h : IsPlainChar c
  · rw [escape_of_isPlainChar h]
    rfl
  · have := two_le_length_escape h
    omega

theorem escapes_eq_zero_iff {s : String} :
    escapes s = 0 ↔ ∀ c ∈ s.toList, IsPlainChar c := by
  rw [escapes, List.sum_eq_zero_iff_forall_eq_nat, List.forall_mem_map]
  refine forall₂_congr fun c _ => ⟨fun h => ?_, fun h => by rw [escape_of_isPlainChar h]; rfl⟩
  by_contra hplain
  have := two_le_length_escape hplain
  omega

theorem length_quote (s : String) : (quote s).length = s.length + 2 + escapes s := by
  have hescapes : ∀ cs : List Char, (cs.flatMap escape).length =
      cs.length + (cs.map fun c => (escape c).length - 1).sum := by
    intro cs
    induction cs with
    | nil => rfl
    | cons c cs ih =>
      rw [List.flatMap_cons, List.length_append, ih, length_escape, List.length_cons,
        List.map_cons, List.sum_cons]
      omega
  rw [quote, String.length_ofList, List.length_append, List.length_cons, hescapes, escapes,
    String.length_toList, List.length_singleton]
  omega

theorem quote_of_isPlain {s : String} (h : ∀ c ∈ s.toList, IsPlainChar c) :
    quote s = "\"" ++ s ++ "\"" := by
  have hsame : s.toList.flatMap escape = s.toList := by
    rw [List.flatMap_congr fun c hc => escape_of_isPlainChar (h c hc), List.flatMap_singleton']
  apply String.toList_injective
  simp [quote, hsame]

namespace Value

variable {v : Value}

theorem length_paintQuoted (s : Style) (text : String) :
    (paintQuoted s false text).length = text.length + 2 := by
  have hmark : "\"".length = 1 := rfl
  simp only [paintQuoted, Style.paint, String.length_append, hmark, Bool.false_eq_true, if_false]
  omega

/-- Indented JSON is longer than the form for reading by what the escapes of all texts take. -/
theorem length_prettyAt (v : Value) (level : Nat) :
    (prettyAt level v).length = (displayAt false level v).length + (v.texts.map escapes).sum := by
  induction v using Value.induction generalizing level with
  | null | bool | number => simp [prettyAt, displayAt, writeValue, texts, Style.paint]
  | string s => simp [prettyAt, displayAt, writeValue, texts, length_quote, length_paintQuoted]
  | array items ih =>
    rw [prettyAt_array, displayAt_array, length_enclose fun v hv => ih v hv (level + 1),
      texts_array, List.map_flatMap, List.flatMap_def, List.sum_flatten, List.map_map]
    rfl
  | object members ih =>
    have hmember : ∀ m ∈ members, (quote m.1 ++ ": " ++ prettyAt (level + 1) m.2).length =
        (paintQuoted .boldBlue false m.1 ++ ": " ++ displayAt false (level + 1) m.2).length +
          ((m.1 :: m.2.texts).map escapes).sum := by
      intro m hm
      have hvalue := ih m hm (level + 1)
      simp only [String.length_append, length_quote, length_paintQuoted, List.map_cons,
        List.sum_cons]
      omega
    rw [prettyAt_object, displayAt_object, length_enclose hmember, texts_object, List.map_flatMap,
      List.flatMap_def, List.sum_flatten, List.map_map]
    rfl

/-- Without anything to escape the two forms are the same. -/
theorem displayAt_of_isPlain (h : v.IsPlain) (level : Nat) :
    displayAt false level v = prettyAt level v := by
  induction v using Value.induction generalizing level with
  | null | bool | number => rfl
  | string s => exact (quote_of_isPlain (h s (.head _))).symm
  | array items ih =>
    rw [IsPlain, texts_array, List.forall_mem_flatMap] at h
    rw [prettyAt_array, displayAt_array]
    exact congrArg _ (List.map_congr_left fun v hv => ih v hv (h v hv) (level + 1))
  | object members ih =>
    rw [IsPlain, texts_object, List.forall_mem_flatMap] at h
    rw [prettyAt_object, displayAt_object]
    refine congrArg _ (List.map_congr_left fun m hm => ?_)
    obtain ⟨hkey, hvalue⟩ := List.forall_mem_cons.1 (h m hm)
    rw [ih m hm hvalue, quote_of_isPlain hkey]
    rfl

theorem displayAt_eq_prettyAt_iff (v : Value) (level : Nat) :
    displayAt false level v = prettyAt level v ↔ v.IsPlain := by
  refine ⟨fun h s hs => ?_, fun h => displayAt_of_isPlain h level⟩
  have hlength := length_prettyAt v level
  rw [h, Nat.left_eq_add, List.sum_eq_zero_iff_forall_eq_nat, List.forall_mem_map] at hlength
  exact escapes_eq_zero_iff.1 (hlength s hs)

/-- For every value whose objects are maps, the indented form is the one text that follows the rules
of indented JSON, and the form for reading without colours is the same text exactly if no text in
the value has a character that is escaped. -/
theorem render_pretty_eq_json_iff {v : Value} (h : v.HasMaps) :
    (∀ text, Indented 0 v text ↔ text = OutputFormat.render false v .json) ∧
      (OutputFormat.render false v .pretty = OutputFormat.render false v .json ↔ v.IsPlain) := by
  refine ⟨fun _ => indented_iff, ?_⟩
  rw [OutputFormat.render, OutputFormat.render, display, canonical_eq_self_iff.2 h]
  exact displayAt_eq_prettyAt_iff v 0

/-- A report with lists and objects in each other, some of them empty. -/
def nestedReport : Value :=
  .object [("deleted", .array []), ("extra", .object []),
    ("written", .array [.string "Größe.ts", .object [("changed", .bool true), ("id", .null)]])]

theorem render_pretty_eq_json_iff_nestedReport :
    nestedReport.HasMaps ∧ nestedReport.IsPlain ∧
      OutputFormat.render false nestedReport .pretty =
        OutputFormat.render false nestedReport .json := by
  have hmaps : nestedReport.HasMaps := by decide +kernel
  have hplain : nestedReport.IsPlain := by
    have htexts : nestedReport.texts =
        ["deleted", "extra", "written", "Größe.ts", "changed", "id"] := rfl
    rw [IsPlain, htexts]
    simp [IsPlainChar]
  exact ⟨hmaps, hplain, (render_pretty_eq_json_iff hmaps).2.2 hplain⟩

end Value

end ApiClient.Json
