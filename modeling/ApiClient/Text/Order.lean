/-!
# Order of texts

Texts are ordered by their code points. `sortByText` and `sortByTexts` sort by one text or by two,
the second breaking ties of the first; both leave equal elements in the order in which they came.

* `sortByText_pairwise`, `sortByTexts_pairwise`: the result is in order.
* `sortByText_pairwise_lt`, `sortByTexts_pairwise_lt`: strictly so if no two elements have the same
  texts.
* `sortByText_eq_of_perm`, `sortByTexts_eq_of_perm`: it does not depend on how the elements came if
  no two have the same texts.
* `find?_sortByText`: the first element of a text stays the first one.
* `sortByText_map`, `sortByTexts_map`: elements may be changed before or after, if their texts stay.
-/

namespace ApiClient.Text

/-- The first text comes before the second one or equals it. -/
def atMost (a b : String) : Bool :=
  !decide (b < a)

/-- The order of pairs in which the first component decides and the second breaks ties. -/
def atMostPair (a b : String × String) : Bool :=
  if a.1 = b.1 then atMost a.2 b.2 else atMost a.1 b.1

/-- Sorts by one text. -/
def sortByText {α : Type} (key : α → String) (as : List α) : List α :=
  as.mergeSort fun a b => atMost (key a) (key b)

/-- Sorts by two texts. -/
def sortByTexts {α : Type} (key : α → String × String) (as : List α) : List α :=
  as.mergeSort fun a b => atMostPair (key a) (key b)

/-! ## The order -/

theorem atMost_iff {a b : String} : atMost a b = true ↔ a ≤ b := by
  simp [atMost, ← String.not_lt]

theorem atMost_trans {a b c : String} (h : atMost a b = true) (h' : atMost b c = true) :
    atMost a c = true :=
  atMost_iff.2 (String.le_trans (atMost_iff.1 h) (atMost_iff.1 h'))

theorem atMost_total (a b : String) : (atMost a b || atMost b a) = true := by
  rw [Bool.or_eq_true, atMost_iff, atMost_iff]
  exact String.le_total a b

theorem atMost_antisymm {a b : String} (h : atMost a b = true) (h' : atMost b a = true) : a = b :=
  String.le_antisymm (atMost_iff.1 h) (atMost_iff.1 h')

theorem atMostPair_trans {a b c : String × String} (h : atMostPair a b = true)
    (h' : atMostPair b c = true) : atMostPair a c = true := by
  unfold atMostPair at h h' ⊢
  split at h <;> rename_i hab <;> split at h' <;> rename_i hbc
  · rw [if_pos (hab.trans hbc)]
    exact atMost_trans h h'
  · rw [if_neg (hab ▸ hbc), hab]
    exact h'
  · rw [if_neg (hbc ▸ hab), ← hbc]
    exact h
  · have hac : a.1 ≠ c.1 := fun hac => hab (atMost_antisymm h (by rw [hac]; exact h'))
    rw [if_neg hac]
    exact atMost_trans h h'

theorem atMostPair_total (a b : String × String) : (atMostPair a b || atMostPair b a) = true := by
  unfold atMostPair
  by_cases h : a.1 = b.1
  · simp only [h, if_true]
    exact atMost_total _ _
  · rw [if_neg h, if_neg (Ne.symm h)]
    exact atMost_total _ _

theorem atMostPair_antisymm {a b : String × String} (h : atMostPair a b = true)
    (h' : atMostPair b a = true) : a = b := by
  unfold atMostPair at h h'
  by_cases he : a.1 = b.1
  · rw [if_pos he] at h
    rw [if_pos he.symm] at h'
    exact Prod.ext he (atMost_antisymm h h')
  · rw [if_neg he] at h
    rw [if_neg (Ne.symm he)] at h'
    exact absurd (atMost_antisymm h h') he

/-! ## Sorted lists -/

theorem sortByText_perm {α : Type} (key : α → String) (as : List α) :
    (sortByText key as).Perm as :=
  List.mergeSort_perm _ _

theorem sortByTexts_perm {α : Type} (key : α → String × String) (as : List α) :
    (sortByTexts key as).Perm as :=
  List.mergeSort_perm _ _

theorem sortByText_pairwise {α : Type} (key : α → String) (as : List α) :
    (sortByText key as).Pairwise fun a b => atMost (key a) (key b) = true :=
  @List.pairwise_mergeSort α (fun a b => atMost (key a) (key b))
    (fun _ _ _ => atMost_trans) (fun _ _ => atMost_total _ _) as

theorem sortByText_pairwise_lt {α : Type} {key : α → String} {as : List α}
    (h : (as.map key).Nodup) : (sortByText key as).Pairwise fun a b => key a < key b := by
  have hdistinct : ((sortByText key as).map key).Nodup :=
    ((sortByText_perm key as).map key).nodup_iff.2 h
  refine ((sortByText_pairwise key as).and (List.pairwise_map.1 hdistinct)).imp ?_
  rintro a b ⟨hle, hne⟩
  exact String.not_le.1 fun hge => hne (String.le_antisymm (atMost_iff.1 hle) hge)

/-- Sorted elements are strictly increasing exactly if no text comes twice. -/
theorem sortByText_pairwise_lt_iff {α : Type} {key : α → String} {as : List α} :
    ((sortByText key as).Pairwise fun a b => key a < key b) ↔ (as.map key).Nodup := by
  refine ⟨fun h => ?_, sortByText_pairwise_lt⟩
  rw [← ((sortByText_perm key as).map key).nodup_iff, List.Nodup, List.pairwise_map]
  refine h.imp fun {a b} hlt heq => ?_
  rw [heq] at hlt
  exact String.lt_irrefl _ hlt

theorem sortByTexts_pairwise {α : Type} (key : α → String × String) (as : List α) :
    (sortByTexts key as).Pairwise fun a b => atMostPair (key a) (key b) = true :=
  @List.pairwise_mergeSort α (fun a b => atMostPair (key a) (key b))
    (fun _ _ _ => atMostPair_trans) (fun _ _ => atMostPair_total _ _) as

theorem sortByTexts_pairwise_lt {α : Type} {key : α → String × String} {as : List α}
    (h : (as.map key).Nodup) : (sortByTexts key as).Pairwise fun a b =>
      (key a).1 < (key b).1 ∨ (key a).1 = (key b).1 ∧ (key a).2 < (key b).2 := by
  have hdistinct : ((sortByTexts key as).map key).Nodup :=
    ((sortByTexts_perm key as).map key).nodup_iff.2 h
  refine ((sortByTexts_pairwise key as).and (List.pairwise_map.1 hdistinct)).imp ?_
  rintro a b ⟨hle, hne⟩
  unfold atMostPair at hle
  by_cases he : (key a).1 = (key b).1
  · rw [if_pos he] at hle
    refine .inr ⟨he, String.not_le.1 fun hge => hne (Prod.ext he ?_)⟩
    exact String.le_antisymm (atMost_iff.1 hle) hge
  · rw [if_neg he] at hle
    exact .inl (String.not_le.1 fun hge => he (String.le_antisymm (atMost_iff.1 hle) hge))

theorem sortByText_eq_of_perm {α : Type} {key : α → String} {as bs : List α} (h : as.Perm bs)
    (hkey : ∀ a ∈ as, ∀ b ∈ as, key a = key b → a = b) : sortByText key as = sortByText key bs := by
  refine List.Perm.eq_of_pairwise (fun a b ha hb hab hba => ?_) (sortByText_pairwise _ _)
    (sortByText_pairwise _ _) (((sortByText_perm _ _).trans h).trans (sortByText_perm _ _).symm)
  exact hkey a ((sortByText_perm _ _).mem_iff.1 ha) b
    (h.mem_iff.2 ((sortByText_perm _ _).mem_iff.1 hb)) (atMost_antisymm hab hba)

theorem sortByTexts_eq_of_perm {α : Type} {key : α → String × String} {as bs : List α}
    (h : as.Perm bs) (hkey : ∀ a ∈ as, ∀ b ∈ as, key a = key b → a = b) :
    sortByTexts key as = sortByTexts key bs := by
  refine List.Perm.eq_of_pairwise (fun a b ha hb hab hba => ?_) (sortByTexts_pairwise _ _)
    (sortByTexts_pairwise _ _) (((sortByTexts_perm _ _).trans h).trans (sortByTexts_perm _ _).symm)
  exact hkey a ((sortByTexts_perm _ _).mem_iff.1 ha) b
    (h.mem_iff.2 ((sortByTexts_perm _ _).mem_iff.1 hb)) (atMostPair_antisymm hab hba)

/-- Elements of the same text stay in their order. -/
theorem filter_sortByText {α : Type} (key : α → String) (text : String) (as : List α) :
    (sortByText key as).filter (fun a => key a = text) = as.filter (fun a => key a = text) := by
  have hordered : (as.filter fun a => key a = text).Pairwise fun a b =>
      atMost (key a) (key b) = true := by
    refine List.pairwise_of_forall_mem_list fun a ha b hb => ?_
    have ha : key a = text := of_decide_eq_true (List.mem_filter.1 ha).2
    have hb : key b = text := of_decide_eq_true (List.mem_filter.1 hb).2
    rw [ha, hb]
    exact atMost_iff.2 (String.le_refl text)
  have hkept : (as.filter fun a => key a = text).Sublist (sortByText key as) :=
    @List.sublist_mergeSort α (fun a b => atMost (key a) (key b)) as
      (fun _ _ _ => atMost_trans) (fun _ _ => atMost_total _ _) _ hordered List.filter_sublist
  have hagain := hkept.filter fun a => decide (key a = text)
  rw [List.filter_filter] at hagain
  simp only [Bool.and_self] at hagain
  exact (hagain.eq_of_length ((sortByText_perm key as).filter _).length_eq.symm).symm

/-- The first element of a text is the same as before. -/
theorem find?_sortByText {α : Type} (key : α → String) (text : String) (as : List α) :
    (sortByText key as).find? (fun a => key a = text) = as.find? (fun a => key a = text) := by
  rw [← List.head?_filter, ← List.head?_filter, filter_sortByText]

theorem sortByText_map {α β : Type} {key : α → String} {key' : β → String} {f : α → β}
    (h : ∀ a, key' (f a) = key a) (as : List α) :
    sortByText key' (as.map f) = (sortByText key as).map f :=
  (List.map_mergeSort fun a _ b _ => by rw [h, h]).symm

theorem sortByTexts_map {α β : Type} {key : α → String × String} {key' : β → String × String}
    {f : α → β} (h : ∀ a, key' (f a) = key a) (as : List α) :
    sortByTexts key' (as.map f) = (sortByTexts key as).map f :=
  (List.map_mergeSort fun a _ b _ => by rw [h, h]).symm

end ApiClient.Text
