import ApiClient.Disk
import Mathlib.Data.List.Nodup

/-!
# Entries and what paths lead to

Results:
* `get?_put`, `get?_erase`: what a location holds after one entry is set or erased.
* `mem_children`, `mem_fileNames`: a directory lists the entries right inside it.
* `find_eq_ok`, `read_eq_ok`, `files_eq_ok`: what it takes that a path can be read.
* `makeDirectory_eq_ok`, `write_eq_ok`, `rename_eq_ok`, `remove_eq_ok`: what a change needs and
  does.
-/

namespace ApiClient.Disk

variable {d d' : Disk} {l m : Location} {n : Node} {p : String} {c : ByteArray}

/-! ## Entries -/

@[simp] theorem get?_nil (d : Disk) : d.get? [] = some .directory :=
  rfl

theorem get?_eq_some_iff (hl : l ≠ []) : d.get? l = some n ↔ (l, n) ∈ d.entries := by
  rw [get?, if_neg hl, Option.map_eq_some_iff]
  constructor
  · rintro ⟨e, he, rfl⟩
    have hkey := List.find?_some he
    rw [← eq_of_beq hkey]
    exact List.mem_of_find?_eq_some he
  · intro h
    have hsome : (d.entries.find? (·.1 == l)).isSome :=
      List.find?_isSome.2 ⟨(l, n), h, beq_self_eq_true l⟩
    obtain ⟨e, he⟩ := Option.isSome_iff_exists.1 hsome
    have hkey := List.find?_some he
    have hsame : e = (l, n) :=
      List.inj_on_of_nodup_map d.distinct (List.mem_of_find?_eq_some he) h (eq_of_beq hkey)
    exact ⟨e, he, by rw [hsame]⟩

theorem get?_erase (hl : l ≠ []) : (d.erase l).get? m = if m = l then none else d.get? m := by
  by_cases hm : m = []
  · rw [hm, get?_nil, get?_nil, if_neg hl.symm]
  · refine Option.ext fun n => ?_
    rw [get?_eq_some_iff hm, erase, List.mem_filter, ← get?_eq_some_iff hm, bne_iff_ne]
    split <;> simp_all

theorem get?_put (hl : l ≠ []) : (d.put l n).get? m = if m = l then some n else d.get? m := by
  by_cases hm : m = []
  · rw [hm, get?_nil, get?_nil, if_neg hl.symm]
  · refine Option.ext fun n' => ?_
    rw [get?_eq_some_iff hm, put, List.mem_cons, ← get?_eq_some_iff hm, get?_erase hl,
      Prod.mk.injEq]
    split <;> simp_all [eq_comm]

/-- The content of the file at a location. -/
def file? (d : Disk) (l : Location) : Option ByteArray :=
  match d.get? l with
  | some (.file c) => some c
  | _ => none

@[simp] theorem file?_eq_some_iff : d.file? l = some c ↔ d.get? l = some (.file c) := by
  unfold file?
  split <;> simp_all

theorem file?_congr (h : d'.get? l = d.get? l) : d'.file? l = d.file? l := by
  rw [file?, file?, h]

/-! ## Directories -/

theorem mem_children {name : String} :
    (name, n) ∈ d.children l ↔ d.get? (l ++ [name]) = some n := by
  rw [children, List.mem_filterMap, get?_eq_some_iff (by simp)]
  constructor
  · rintro ⟨⟨m, n'⟩, hmem, he⟩
    split at he
    · rename_i last hlast
      obtain ⟨hl, hentry⟩ := Option.ite_none_right_eq_some.1 he
      obtain ⟨rfl, rfl⟩ := Prod.mk.inj (Option.some.inj hentry)
      rw [← hl, List.dropLast_append_getLast? _ hlast]
      exact hmem
    · simp at he
  · intro h
    exact ⟨_, h, by simp⟩

/-- The names of the files right inside a directory. -/
def fileNames (d : Disk) (l : Location) : List String :=
  (d.children l).filterMap fun e =>
    match e.2 with
    | .file _ => some e.1
    | .directory => none

theorem mem_fileNames {name : String} :
    name ∈ d.fileNames l ↔ ∃ c, d.file? (l ++ [name]) = some c := by
  rw [fileNames, List.mem_filterMap]
  constructor
  · rintro ⟨⟨name', n⟩, hmem, he⟩
    cases n with
    | file c =>
      obtain rfl := Option.some.inj he
      exact ⟨c, file?_eq_some_iff.2 (mem_children.1 hmem)⟩
    | directory => simp at he
  · rintro ⟨c, hc⟩
    exact ⟨(name, .file c), mem_children.2 (file?_eq_some_iff.1 hc), rfl⟩

theorem children_nodup (d : Disk) (l : Location) : ((d.children l).map (·.1)).Nodup := by
  have hdistinct : d.entries.Pairwise fun a b => a.1 ≠ b.1 := List.pairwise_map.1 d.distinct
  refine List.pairwise_map.2 (List.pairwise_filterMap.2 (hdistinct.imp ?_))
  intro a b hne e he e' he' hname
  refine hne ?_
  split at he
  · rename_i last hlast
    split at he'
    · rename_i last' hlast'
      obtain ⟨hl, hentry⟩ := Option.ite_none_right_eq_some.1 he
      obtain ⟨hl', hentry'⟩ := Option.ite_none_right_eq_some.1 he'
      obtain rfl := Option.some.inj hentry
      obtain rfl := Option.some.inj hentry'
      rw [← List.dropLast_append_getLast? _ hlast, ← List.dropLast_append_getLast? _ hlast', hl,
        hl', show last = last' from hname]
    · simp at he'
  · simp at he

theorem fileNames_nodup (d : Disk) (l : Location) : (d.fileNames l).Nodup := by
  have hdistinct : (d.children l).Pairwise fun a b => a.1 ≠ b.1 :=
    List.pairwise_map.1 (d.children_nodup l)
  refine List.pairwise_filterMap.2 (hdistinct.imp ?_)
  rintro ⟨name, n⟩ ⟨name', n'⟩ hne e he e' he' rfl
  cases n <;> cases n' <;> simp_all

/-! ## Reading -/

theorem bind_eq_ok {ε α β : Type} {x : Except ε α} {f : α → Except ε β} {b : β} :
    x >>= f = .ok b ↔ ∃ a, x = .ok a ∧ f a = .ok b := by
  cases x <;> simp [bind, Except.bind]

theorem map_eq_ok {ε α β : Type} {x : Except ε α} {f : α → β} {b : β} :
    x.map f = .ok b ↔ ∃ a, x = .ok a ∧ f a = b := by
  cases x <;> simp [Except.map]

theorem eq_ok_of_toOption {ε α : Type} {r : Except ε α} {a : α} (h : r.toOption = some a) :
    r = .ok a := by
  cases r with
  | error e => simp [Except.toOption] at h
  | ok b => exact congrArg Except.ok (Option.some.inj h)

theorem exists_eq_ok {ε α : Type} {r : Except ε α} (h : r.toOption.isSome = true) :
    ∃ a, r = .ok a := by
  obtain ⟨a, ha⟩ := Option.isSome_iff_exists.1 h
  exact ⟨a, eq_ok_of_toOption ha⟩

theorem find_eq_ok : d.find p = .ok (l, n) ↔
    d.place p = .ok l ∧ d.get? l = some n ∧
      (p.toList.getLast? = some '/' → n = .directory) := by
  rw [find, bind_eq_ok]
  constructor
  · rintro ⟨l', hplace, h⟩
    split at h
    · simp at h
    · rename_i c hc
      split at h
      · simp at h
      · rename_i hlast
        obtain ⟨rfl, rfl⟩ := Prod.mk.inj (Except.ok.inj h)
        exact ⟨hplace, hc, fun he => absurd he hlast⟩
    · rename_i hdirectory
      obtain ⟨rfl, rfl⟩ := Prod.mk.inj (Except.ok.inj h)
      exact ⟨hplace, hdirectory, fun _ => rfl⟩
  · rintro ⟨hplace, hget, hlast⟩
    refine ⟨l, hplace, ?_⟩
    rw [hget]
    cases n with
    | file c =>
      refine if_neg fun he => ?_
      cases hlast he
    | directory => rfl

theorem isDirectory_iff : d.isDirectory p = true ↔
    ∃ l, d.place p = .ok l ∧ d.get? l = some .directory := by
  rw [isDirectory]
  constructor
  · intro h
    split at h
    · rename_i l hfind
      obtain ⟨hplace, hget, _⟩ := find_eq_ok.1 hfind
      exact ⟨l, hplace, hget⟩
    · simp at h
  · rintro ⟨l, hplace, hget⟩
    rw [find_eq_ok.2 ⟨hplace, hget, fun _ => rfl⟩]

theorem read_eq_ok : d.read p = .ok c ↔
    ∃ l, d.place p = .ok l ∧ d.file? l = some c ∧ p.toList.getLast? ≠ some '/' := by
  rw [read, bind_eq_ok]
  constructor
  · rintro ⟨⟨l, n⟩, hfind, h⟩
    cases n with
    | file c' =>
      obtain rfl := Except.ok.inj h
      obtain ⟨hplace, hget, hlast⟩ := find_eq_ok.1 hfind
      exact ⟨l, hplace, file?_eq_some_iff.2 hget, fun he => by cases hlast he⟩
    | directory => simp at h
  · rintro ⟨l, hplace, hfile, hlast⟩
    refine ⟨(l, .file c), find_eq_ok.2 ⟨hplace, file?_eq_some_iff.1 hfile, ?_⟩, rfl⟩
    exact fun he => absurd he hlast

theorem fromUTF8?_toUTF8 (text : String) : String.fromUTF8? text.toUTF8 = some text := by
  unfold String.fromUTF8?
  exact dif_pos text.isValidUTF8

theorem readText_of_read {text : String} (h : d.read p = .ok text.toUTF8) :
    d.readText p = .ok text := by
  rw [readText, h]
  exact bind_eq_ok.2 ⟨_, rfl, by rw [fromUTF8?_toUTF8]⟩

theorem read_of_isDirectory (h : d.isDirectory p = true) : d.read p = .error .isADirectory := by
  obtain ⟨l, hplace, hl⟩ := isDirectory_iff.1 h
  rw [read, find_eq_ok.2 ⟨hplace, hl, fun _ => rfl⟩]
  rfl

theorem read_of_none (hplace : d.place p = .ok l) (h : d.get? l = none) :
    d.read p = .error .notFound := by
  simp [read, find, hplace, h, bind, Except.bind]

theorem files_eq_ok {names : List String} : d.files p = .ok names ↔
    ∃ l, d.place p = .ok l ∧ d.get? l = some .directory ∧ d.fileNames l = names := by
  have hlist : ∀ entries, d.list p = .ok entries ↔
      ∃ l, d.find p = .ok (l, .directory) ∧ d.children l = entries := by
    intro entries
    rw [list, bind_eq_ok]
    constructor
    · rintro ⟨⟨l, n⟩, hfind, h⟩
      cases n with
      | file => simp at h
      | directory => exact ⟨l, hfind, Except.ok.inj h⟩
    · rintro ⟨l, hfind, rfl⟩
      exact ⟨_, hfind, rfl⟩
  constructor
  · intro h
    rw [files] at h
    cases hentries : d.list p with
    | error => simp [hentries, Except.map] at h
    | ok entries =>
      rw [hentries] at h
      obtain ⟨l, hfind, rfl⟩ := (hlist entries).1 hentries
      obtain ⟨hplace, hget, _⟩ := find_eq_ok.1 hfind
      exact ⟨l, hplace, hget, Except.ok.inj h⟩
  · rintro ⟨l, hplace, hget, rfl⟩
    rw [files, (hlist _).2 ⟨l, find_eq_ok.2 ⟨hplace, hget, fun _ => rfl⟩, rfl⟩]
    rfl

/-! ## Changing -/

theorem makeDirectory_eq_ok : d.makeDirectory p = .ok d' ↔
    ∃ l, d.place p = .ok l ∧ d.get? l = none ∧ d' = d.put l .directory := by
  rw [makeDirectory, bind_eq_ok]
  refine exists_congr fun l => and_congr_right fun _ => ?_
  cases d.get? l <;> simp [eq_comm]

theorem write_eq_ok : d.write p c = .ok d' ↔
    ∃ l, d.place p = .ok l ∧ d.get? l ≠ some .directory ∧ d' = d.put l (.file c) := by
  rw [write, bind_eq_ok]
  refine exists_congr fun l => and_congr_right fun _ => ?_
  rcases d.get? l with _ | _ | _ <;> simp [eq_comm]

theorem write_of_directory (hplace : d.place p = .ok l) (h : d.get? l = some .directory) :
    d.write p c = .error .isADirectory := by
  simp [write, hplace, h, bind, Except.bind]

theorem rename_eq_ok {source target : String} : d.rename source target = .ok d' ↔
    ∃ l n m, d.find source = .ok (l, n) ∧ d.place target = .ok m ∧ d.get? m ≠ some .directory ∧
      d' = (d.erase l).put m n := by
  simp only [rename, bind_eq_ok, Prod.exists]
  refine exists_congr fun l => exists_congr fun n => ?_
  rw [← exists_and_left]
  refine exists_congr fun m => and_congr_right fun _ => and_congr_right fun _ => ?_
  rcases d.get? m with _ | _ | _ <;> simp [eq_comm]

theorem remove_eq_ok : d.remove p = .ok d' ↔
    ∃ l c, d.find p = .ok (l, .file c) ∧ d' = d.erase l := by
  rw [remove, bind_eq_ok]
  constructor
  · rintro ⟨⟨l, n⟩, hfind, h⟩
    cases n with
    | file c => exact ⟨l, c, hfind, (Except.ok.inj h).symm⟩
    | directory => simp at h
  · rintro ⟨l, c, hfind, rfl⟩
    exact ⟨_, hfind, rfl⟩

end ApiClient.Disk
