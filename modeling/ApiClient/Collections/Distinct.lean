/-!
# Distinct elements

`distinctBy` keeps the first element of each key. Main statements:

* `mem_distinctBy`: what is kept is an element of the list whose key was not seen.
* `map_distinctBy_nodup`: no key is kept twice.
* `exists_mem_distinctBy`: every unseen key is kept once.
* `mem_map_distinctBy`: the keys that are kept are the unseen ones.
* `distinctBy_append`: a list can be gone through in parts.
* `distinctBy_eq_filter`: the keys that were seen can be left out afterwards.
* `distinctBy_append_congr`: lists with the same first elements stand for each other in other lists.
* `mem_distinctBy_id`: of repeated elements one is kept.
* `mem_distinctBy_of_first`: what is kept for a key is its first element.
* `mem_distinctBy_append_cons`: an element is kept exactly if its key is new at its place.
* `mem_distinctBy_iff`: of the keys that were not seen exactly the first elements are kept.
* `isFirst_flatMap`: if lists share no keys, first elements of them all are those of each.
* `forall_isFirst_iff`: all elements are first ones if no key is repeated.
* `distinctBy_map`: elements may be changed before or after, if their keys stay.
* `distinctBy_eq_self`: a list without repeated keys stays as it is.
-/

namespace ApiClient

variable {α β : Type} [DecidableEq β]

/-- The first element of each key that is not among the `seen` ones, in order. -/
def distinctBy (key : α → β) (seen : List β) : List α → List α
  | [] => []
  | a :: as =>
    if key a ∈ seen then distinctBy key seen as
    else a :: distinctBy key (key a :: seen) as

@[simp] theorem distinctBy_nil (key : α → β) (seen : List β) : distinctBy key seen [] = [] := rfl

theorem mem_distinctBy {key : α → β} {seen : List β} {as : List α} {a : α}
    (h : a ∈ distinctBy key seen as) : a ∈ as ∧ key a ∉ seen := by
  induction as generalizing seen with
  | nil => simp at h
  | cons b bs ih =>
    unfold distinctBy at h
    split at h
    · exact ⟨.tail _ (ih h).1, (ih h).2⟩
    · rcases List.mem_cons.1 h with rfl | h
      · exact ⟨.head _, by assumption⟩
      · exact ⟨.tail _ (ih h).1, fun hs => (ih h).2 (.tail _ hs)⟩

theorem map_distinctBy_nodup (key : α → β) (seen : List β) (as : List α) :
    ((distinctBy key seen as).map key).Nodup := by
  induction as generalizing seen with
  | nil => simp
  | cons b bs ih =>
    unfold distinctBy
    split
    · exact ih _
    · refine List.nodup_cons.2 ⟨fun hb => ?_, ih _⟩
      obtain ⟨a, ha, hk⟩ := List.mem_map.1 hb
      exact (mem_distinctBy ha).2 (hk ▸ .head _)

theorem exists_mem_distinctBy {key : α → β} {seen : List β} {as : List α} {a : α} (h : a ∈ as)
    (hs : key a ∉ seen) : ∃ b ∈ distinctBy key seen as, key b = key a := by
  induction as generalizing seen with
  | nil => simp at h
  | cons b bs ih =>
    unfold distinctBy
    by_cases hb : key b = key a
    · exact ⟨b, by simp [hb, hs], hb⟩
    · have h : a ∈ bs := by
        rcases List.mem_cons.1 h with rfl | h
        · exact absurd rfl hb
        · exact h
      split
      · exact ih h hs
      · have hn : key a ∉ key b :: seen := by
          intro hm
          rcases List.mem_cons.1 hm with he | hm
          · exact hb he.symm
          · exact hs hm
        obtain ⟨c, hc, hk⟩ := ih h hn
        exact ⟨c, .tail _ hc, hk⟩

theorem mem_map_distinctBy {key : α → β} {seen : List β} {as : List α} {b : β} :
    b ∈ (distinctBy key seen as).map key ↔ b ∈ as.map key ∧ b ∉ seen := by
  constructor
  · intro h
    obtain ⟨a, ha, rfl⟩ := List.mem_map.1 h
    exact ⟨List.mem_map_of_mem (mem_distinctBy ha).1, (mem_distinctBy ha).2⟩
  · rintro ⟨h, hs⟩
    obtain ⟨a, ha, rfl⟩ := List.mem_map.1 h
    obtain ⟨c, hc, hk⟩ := exists_mem_distinctBy ha hs
    exact List.mem_map.2 ⟨c, hc, hk⟩

theorem distinctBy_congr {key : α → β} {seen seen' : List β} (h : ∀ b, b ∈ seen ↔ b ∈ seen')
    (as : List α) : distinctBy key seen as = distinctBy key seen' as := by
  induction as generalizing seen seen' with
  | nil => rfl
  | cons a as ih =>
    unfold distinctBy
    by_cases ha : key a ∈ seen
    · rw [if_pos ha, if_pos ((h _).1 ha), ih h]
    · rw [if_neg ha, if_neg (mt (h _).2 ha)]
      refine congrArg _ (ih fun b => ?_)
      rw [List.mem_cons, List.mem_cons, h b]

theorem distinctBy_append (key : α → β) (seen : List β) (as bs : List α) :
    distinctBy key seen (as ++ bs) =
      distinctBy key seen as ++ distinctBy key (seen ++ as.map key) bs := by
  induction as generalizing seen with
  | nil => simp
  | cons a as ih =>
    have hkeys : ∀ b, b ∈ key a :: (seen ++ as.map key) ↔ b ∈ seen ++ (a :: as).map key := by
      simp only [List.map_cons, List.mem_cons, List.mem_append]
      grind
    rw [List.cons_append, distinctBy, distinctBy]
    split
    · rename_i ha
      rw [ih]
      refine congrArg _ (distinctBy_congr (fun b => ?_) bs)
      rw [← hkeys b, List.mem_cons, or_iff_right_of_imp]
      rintro rfl
      exact List.mem_append_left _ ha
    · rw [ih, List.cons_append, List.cons_append]
      exact congrArg _ (congrArg _ (distinctBy_congr hkeys bs))

theorem distinctBy_append_seen (key : α → β) (seen more : List β) (as : List α) :
    distinctBy key (seen ++ more) as = (distinctBy key seen as).filter (key · ∉ more) := by
  induction as generalizing seen with
  | nil => rfl
  | cons a as ih =>
    unfold distinctBy
    by_cases hseen : key a ∈ seen
    · rw [if_pos (List.mem_append_left _ hseen), if_pos hseen, ih]
    · rw [if_neg hseen]
      have hrest := ih (key a :: seen)
      rw [List.cons_append] at hrest
      by_cases hmore : key a ∈ more
      · rw [if_pos (List.mem_append_right _ hmore), List.filter_cons_of_neg (by simp [hmore]),
          ← hrest]
        refine distinctBy_congr (fun b => ?_) as
        rw [List.mem_cons, or_iff_right_of_imp]
        rintro rfl
        exact List.mem_append_right _ hmore
      · rw [if_neg (by simp [hseen, hmore]), List.filter_cons_of_pos (by simp [hmore]), hrest]

theorem distinctBy_eq_filter (key : α → β) (seen : List β) (as : List α) :
    distinctBy key seen as = (distinctBy key [] as).filter (key · ∉ seen) :=
  distinctBy_append_seen key [] seen as

/-- What is kept of all lists stays the same if one of them is changed, but not its first elements. -/
theorem distinctBy_append_congr {key : α → β} {bs bs' : List α}
    (h : distinctBy key [] bs = distinctBy key [] bs') (seen : List β) (as cs : List α) :
    distinctBy key seen (as ++ (bs ++ cs)) = distinctBy key seen (as ++ (bs' ++ cs)) := by
  have hkeys : ∀ b, b ∈ bs.map key ↔ b ∈ bs'.map key := by
    intro b
    have hkept := congrArg (b ∈ List.map key ·) h
    simpa only [mem_map_distinctBy, List.not_mem_nil, not_false_eq_true, and_true, eq_iff_iff]
      using hkept
  have hlater : ∀ b, b ∈ seen ++ as.map key ++ bs.map key ↔
      b ∈ seen ++ as.map key ++ bs'.map key := by
    intro b
    rw [List.mem_append, List.mem_append (t := bs'.map key), hkeys]
  rw [distinctBy_append, distinctBy_append, distinctBy_append key seen as,
    distinctBy_append key _ bs', distinctBy_eq_filter key _ bs, h, ← distinctBy_eq_filter,
    distinctBy_congr hlater]

theorem mem_distinctBy_id {seen bs : List β} {b : β} :
    b ∈ distinctBy id seen bs ↔ b ∈ bs ∧ b ∉ seen := by
  constructor
  · exact mem_distinctBy
  · rintro ⟨hb, hs⟩
    have hkept : ∃ c ∈ distinctBy id seen bs, id c = id b := exists_mem_distinctBy hb hs
    obtain ⟨c, hc, rfl⟩ := hkept
    exact hc

theorem mem_distinctBy_of_first {key : α → β} {seen : List β} {as bs : List α} {a : α}
    (hs : key a ∉ seen) (ha : key a ∉ as.map key) : a ∈ distinctBy key seen (as ++ a :: bs) := by
  induction as generalizing seen with
  | nil => simp [distinctBy, hs]
  | cons c as ih =>
    rw [List.map_cons, List.mem_cons, not_or] at ha
    rw [List.cons_append]
    unfold distinctBy
    split
    · exact ih hs ha.2
    · refine .tail _ (ih ?_ ha.2)
      rw [List.mem_cons, not_or]
      exact ⟨ha.1, hs⟩

theorem distinctBy_sublist (key : α → β) (seen : List β) (as : List α) :
    (distinctBy key seen as).Sublist as := by
  induction as generalizing seen with
  | nil => exact List.Sublist.slnil
  | cons a as ih =>
    unfold distinctBy
    split
    · exact (ih _).cons a
    · exact (ih _).cons_cons a

/-- Whether an element is kept depends on the keys that were seen and on those before it. -/
theorem mem_distinctBy_append_cons {key : α → β} {seen : List β} {as bs : List α} {a : α}
    (h : (as ++ a :: bs).Nodup) :
    a ∈ distinctBy key seen (as ++ a :: bs) ↔ key a ∉ seen ∧ key a ∉ as.map key := by
  constructor
  · intro hkept
    rw [distinctBy_append, List.mem_append] at hkept
    rcases hkept with hbefore | hkept
    · obtain ⟨_, _, hapart⟩ := List.nodup_append.1 h
      exact absurd rfl (hapart a (mem_distinctBy hbefore).1 a (.head _))
    · have hnew := (mem_distinctBy hkept).2
      rwa [List.mem_append, not_or] at hnew
  · rintro ⟨hseen, hbefore⟩
    exact mem_distinctBy_of_first hseen hbefore

/-- The element comes before all others of its key. -/
def IsFirst (key : α → β) (as : List α) (a : α) : Prop :=
  ∃ bs cs, as = bs ++ a :: cs ∧ key a ∉ bs.map key

theorem isFirst_of_mem_distinctBy {key : α → β} {seen : List β} {as : List α} {a : α}
    (h : a ∈ distinctBy key seen as) : IsFirst key as a := by
  induction as generalizing seen with
  | nil => simp at h
  | cons b bs ih =>
    obtain ⟨_, hseen⟩ := mem_distinctBy h
    unfold distinctBy at h
    split at h
    · rename_i hb
      obtain ⟨cs, ds, rfl, hfirst⟩ := ih h
      refine ⟨b :: cs, ds, rfl, ?_⟩
      rw [List.map_cons, List.mem_cons, not_or]
      exact ⟨fun he => hseen (he ▸ hb), hfirst⟩
    · rcases List.mem_cons.1 h with rfl | h
      · exact ⟨[], bs, rfl, List.not_mem_nil⟩
      · obtain ⟨cs, ds, rfl, hfirst⟩ := ih h
        refine ⟨b :: cs, ds, rfl, ?_⟩
        rw [List.map_cons, List.mem_cons, not_or]
        exact ⟨fun he => (mem_distinctBy h).2 (he ▸ .head _), hfirst⟩

/-- Of every key that was not seen the first element is kept. -/
theorem mem_distinctBy_iff {key : α → β} {seen : List β} {as : List α} {a : α} :
    a ∈ distinctBy key seen as ↔ key a ∉ seen ∧ IsFirst key as a := by
  constructor
  · intro h
    exact ⟨(mem_distinctBy h).2, isFirst_of_mem_distinctBy h⟩
  · rintro ⟨hseen, bs, cs, rfl, hfirst⟩
    exact mem_distinctBy_of_first hseen hfirst

theorem mem_distinctBy_nil_iff {key : α → β} {as : List α} {a : α} :
    a ∈ distinctBy key [] as ↔ IsFirst key as a := by
  rw [mem_distinctBy_iff, and_iff_right List.not_mem_nil]

omit [DecidableEq β] in
theorem IsFirst.mem {key : α → β} {as : List α} {a : α} (h : IsFirst key as a) : a ∈ as := by
  obtain ⟨bs, cs, rfl, _⟩ := h
  simp

/-- The first element of a key is what a search for the key finds. -/
theorem IsFirst.find?_eq {key : α → β} {as : List α} {a : α} (h : IsFirst key as a) :
    as.find? (fun b => key b = key a) = some a := by
  obtain ⟨bs, cs, rfl, hfirst⟩ := h
  have hbs : bs.find? (fun b => key b = key a) = none := by
    refine List.find?_eq_none.2 fun b hb => ?_
    rw [decide_eq_true_iff]
    exact fun he => hfirst (List.mem_map.2 ⟨b, hb, he⟩)
  rw [List.find?_append, hbs, Option.none_or, List.find?_cons_of_pos (by simp)]

theorem IsFirst.unique {key : α → β} {as : List α} {a b : α} (ha : IsFirst key as a)
    (hb : IsFirst key as b) (h : key a = key b) : a = b := by
  have hfind := ha.find?_eq
  rw [h, hb.find?_eq] at hfind
  exact (Option.some.inj hfind).symm

omit [DecidableEq β] in
/-- A first element of two lists is one of the first list, or one of the second list whose key the
first list has not. -/
theorem isFirst_append {key : α → β} {as bs : List α} {a : α} :
    IsFirst key (as ++ bs) a ↔ IsFirst key as a ∨ key a ∉ as.map key ∧ IsFirst key bs a := by
  constructor
  · rintro ⟨cs, ds, h, hfirst⟩
    rcases List.append_eq_append_iff.1 h with ⟨es, rfl, rfl⟩ | ⟨es, rfl, hds⟩
    · rw [List.map_append, List.mem_append, not_or] at hfirst
      exact .inr ⟨hfirst.1, es, ds, rfl, hfirst.2⟩
    · cases es with
      | nil =>
        rw [List.nil_append] at hds
        rw [List.append_nil]
        exact .inr ⟨hfirst, [], ds, hds.symm, List.not_mem_nil⟩
      | cons e es =>
        obtain ⟨rfl, rfl⟩ := List.cons.inj hds
        exact .inl ⟨cs, es, rfl, hfirst⟩
  · rintro (⟨cs, ds, rfl, hfirst⟩ | ⟨hkey, cs, ds, rfl, hfirst⟩)
    · exact ⟨cs, ds ++ bs, by simp, hfirst⟩
    · refine ⟨as ++ cs, ds, by simp, ?_⟩
      rw [List.map_append, List.mem_append, not_or]
      exact ⟨hkey, hfirst⟩

omit [DecidableEq β] in
/-- A first element among results is the result of an element that none before it shares its key
with. -/
theorem isFirst_filterMap {γ : Type} {key : α → β} {f : γ → Option α} {cs : List γ} {a : α} :
    IsFirst key (cs.filterMap f) a ↔
      ∃ ds c es, cs = ds ++ c :: es ∧ f c = some a ∧
        ∀ d ∈ ds, ∀ b, f d = some b → key b ≠ key a := by
  constructor
  · rintro ⟨as, bs, h, hfirst⟩
    obtain ⟨ds, es, rfl, rfl, hes⟩ := List.filterMap_eq_append_iff.1 h
    obtain ⟨fs, c, gs, rfl, hfs, hc, _⟩ := List.filterMap_eq_cons_iff.1 hes
    refine ⟨ds ++ fs, c, gs, by simp, hc, ?_⟩
    intro d hd b hb hkey
    rcases List.mem_append.1 hd with hd | hd
    · exact hfirst (List.mem_map.2 ⟨b, List.mem_filterMap.2 ⟨d, hd, hb⟩, hkey⟩)
    · simp [hfs d hd] at hb
  · rintro ⟨ds, c, es, rfl, hc, hds⟩
    refine ⟨ds.filterMap f, es.filterMap f, by simp [hc], ?_⟩
    intro h
    obtain ⟨b, hb, hkey⟩ := List.mem_map.1 h
    obtain ⟨d, hd, hdb⟩ := List.mem_filterMap.1 hb
    exact hds d hd b hdb hkey

omit [DecidableEq β] in
theorem isFirst_cons {key : α → β} {b : α} {bs : List α} {a : α} :
    IsFirst key (b :: bs) a ↔ a = b ∨ key a ≠ key b ∧ IsFirst key bs a := by
  have hsingle : IsFirst key [b] a ↔ a = b := by
    constructor
    · exact fun h => List.mem_singleton.1 h.mem
    · rintro rfl
      exact ⟨[], [], rfl, List.not_mem_nil⟩
  rw [← List.singleton_append, isFirst_append, hsingle, List.map_singleton, List.mem_singleton]

omit [DecidableEq β] in
/-- What is first depends only on which elements have the same key. -/
theorem isFirst_map {γ δ : Type} {key : α → β} {key' : γ → δ} {f : γ → α}
    (hf : Function.Injective f) (h : ∀ c d, key (f c) = key (f d) ↔ key' c = key' d) {cs : List γ}
    {c : γ} : IsFirst key (cs.map f) (f c) ↔ IsFirst key' cs c := by
  induction cs with
  | nil => exact ⟨fun h => absurd h.mem List.not_mem_nil, fun h => absurd h.mem List.not_mem_nil⟩
  | cons d ds ih => rw [List.map_cons, isFirst_cons, isFirst_cons, hf.eq_iff, ih, ne_eq, h]

omit [DecidableEq β] in
/-- Among lists without common keys, the first elements are those of each list. -/
theorem isFirst_flatMap {γ : Type} {key : α → β} {f : γ → List α} {cs : List γ}
    (h : cs.Pairwise fun c d => ∀ a ∈ f c, ∀ b ∈ f d, key a ≠ key b) {c : γ} (hc : c ∈ cs) {a : α}
    (ha : a ∈ f c) : IsFirst key (cs.flatMap f) a ↔ IsFirst key (f c) a := by
  induction cs with
  | nil => simp at hc
  | cons d ds ih =>
    obtain ⟨hd, hds⟩ := List.pairwise_cons.1 h
    rw [List.flatMap_cons, isFirst_append]
    rcases List.mem_cons.1 hc with rfl | hc
    · exact or_iff_left fun hlater => hlater.1 (List.mem_map_of_mem ha)
    · have hkey : key a ∉ (f d).map key := by
        intro hmem
        obtain ⟨b, hb, hba⟩ := List.mem_map.1 hmem
        exact hd c hc b hb a ha hba
      rw [ih hds hc]
      constructor
      · rintro (hfirst | ⟨_, hfirst⟩)
        · exact absurd (List.mem_map_of_mem hfirst.mem) hkey
        · exact hfirst
      · exact fun hfirst => .inr ⟨hkey, hfirst⟩

omit [DecidableEq β] in
/-- Of different elements all are first ones exactly if they have different keys. -/
theorem forall_isFirst_iff {key : α → β} {as : List α} (h : as.Nodup) :
    (∀ a ∈ as, IsFirst key as a) ↔ (as.map key).Nodup := by
  induction as with
  | nil => simp
  | cons b bs ih =>
    obtain ⟨hb, hbs⟩ := List.nodup_cons.1 h
    have hfirst : ∀ a ∈ bs, IsFirst key (b :: bs) a ↔ key a ≠ key b ∧ IsFirst key bs a := by
      intro a ha
      rw [isFirst_cons, or_iff_right]
      rintro rfl
      exact hb ha
    have hkeys : (∀ a ∈ bs, key a ≠ key b) ↔ key b ∉ bs.map key := by simp
    rw [List.forall_mem_cons, and_iff_right (isFirst_cons.2 (.inl rfl)), forall₂_congr hfirst,
      List.map_cons, List.nodup_cons, ← ih hbs, ← hkeys]
    simp only [imp_and, forall_and]

theorem distinctBy_map {γ : Type} {key : α → β} {key' : γ → β} {f : α → γ}
    (h : ∀ a, key' (f a) = key a) (seen : List β) (as : List α) :
    distinctBy key' seen (as.map f) = (distinctBy key seen as).map f := by
  induction as generalizing seen with
  | nil => rfl
  | cons a as ih =>
    rw [List.map_cons]
    unfold distinctBy
    rw [h]
    split <;> simp [ih]

theorem distinctBy_eq_self {key : α → β} {seen : List β} {as : List α} (h : (as.map key).Nodup)
    (hs : ∀ a ∈ as, key a ∉ seen) : distinctBy key seen as = as := by
  induction as generalizing seen with
  | nil => rfl
  | cons a as ih =>
    rw [List.map_cons, List.nodup_cons] at h
    rw [distinctBy, if_neg (hs a (.head _)), ih h.2]
    intro b hb
    rw [List.mem_cons, not_or]
    exact ⟨fun he => h.1 (he ▸ List.mem_map_of_mem hb), hs b (.tail _ hb)⟩

end ApiClient
