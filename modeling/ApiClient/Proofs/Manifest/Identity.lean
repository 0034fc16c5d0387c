import ApiClient.Proofs.Manifest.Distances
import ApiClient.Proofs.Resolution

/-!
# Types that print alike

An entry of a manifest is found by its printed form, and the printed form of a type does not tell
its module. Of types that print alike the first one met has an entry, the others are missed.

* `TellsTypes`: the identifiers of the entries are different, and every declared type of a member
  has an entry of its own.
* `PrintsApart`: references that print alike are to the same type.

Results:
* `tellsTypes_iff`: when the entries tell the types apart.
* `not_tellsTypes_crate`: a member type without an entry of its own.
-/

namespace ApiClient

/-- The name of a type with its module. -/
def TypeDef.signature (d : TypeDef) : String :=
  d.qualifiedName ++ ", " ++ d.module

namespace Registry

variable {r : Registry} {models : ModelSet} {entries : List ManifestEntry} {k : ℕ} {t u : TypeRef}

/-- The reference is the type of a member of a described type. -/
def IsMember (r : Registry) (models : ModelSet) (u : TypeRef) : Prop :=
  ∃ t, r.Stands models t ∧ u ∈ r.memberTypes t

/-- The identifiers of the entries are different, and every declared type of a member has an entry
of its own. -/
structure TellsTypes (r : Registry) (models : ModelSet) (entries : List ManifestEntry) : Prop where
  ids_nodup : (entries.map (·.id)).Nodup
  own : ∀ u id d, r.IsMember models u → u.declaredId? = some id → r.get? id = some d →
    ∃ e ∈ entries, e.qualifiedName = d.signature

/-- Mentioned references that print alike are to the same type. -/
def PrintsApart (r : Registry) (models : ModelSet) : Prop :=
  ∀ j k t u, r.MentionedAt models j t → r.MentionedAt models k u → r.display t = r.display u →
    t.declaredId? = u.declaredId?

/-! ## Entries -/

theorem stands_iff (h : r.layer models (k + 1) = []) :
    r.Stands models t ↔ t ∈ r.met models k := by
  constructor
  · rintro ⟨j, hj⟩
    rcases le_total j k with hle | hle
    · exact mem_met_of_le hle hj
    · rw [met_eq_of_layer_eq_nil h hle] at hj
      exact hj
  · exact fun ht => ⟨k, ht⟩

/-- The references that stand for their printed forms have the entries. -/
theorem exists_entry_iff (h : r.manifest models = .ok entries) {p : ManifestEntry → Prop} :
    (∃ e ∈ entries, p e) ↔ ∃ t, r.Stands models t ∧ p (r.manifestEntry t) := by
  obtain ⟨hlast, rfl⟩ := manifest_eq_ok_iff.1 h
  simp only [stands_iff hlast, List.mem_map]
  constructor
  · rintro ⟨_, ⟨t, ht, rfl⟩, hp⟩
    exact ⟨t, ht, hp⟩
  · rintro ⟨t, ht, hp⟩
    exact ⟨_, ⟨t, ht, rfl⟩, hp⟩

theorem display_model (r : Registry) (id : TypeId) :
    r.display (.declared id []) = r.qualifiedName id := by
  rw [display_declared]
  rfl

/-- Only models share an identifier. -/
theorem ids_nodup_iff (h : r.manifest models = .ok entries) :
    (entries.map (·.id)).Nodup ↔
      ∀ a ∈ models, ∀ b ∈ models, r.qualifiedName a = r.qualifiedName b → a = b := by
  obtain ⟨hlast, rfl⟩ := manifest_eq_ok_iff.1 h
  obtain ⟨further, hmet, hfurther⟩ := exists_breadthFirst hlast
  have hids : ((r.met models maxPasses).map r.manifestEntry).map (·.id) =
      (r.modelRefs models).map r.display ++ further.map r.display := by
    rw [hmet, List.map_map, ← List.map_append]
    exact List.map_congr_left fun t _ => id_manifestEntry r t
  have hmodels : (r.modelRefs models).map r.display =
      (models.sorted r).map r.qualifiedName := by
    rw [modelRefs, List.map_map]
    exact List.map_congr_left fun id _ => display_model r id
  have hdisjoint : ∀ x ∈ (r.modelRefs models).map r.display, ∀ y ∈ further.map r.display,
      x ≠ y := by
    rintro x hx y hy rfl
    obtain ⟨t, ht, rfl⟩ := List.mem_map.1 hy
    exact hfurther.isNew t ht hx
  have hsorted : (models.sorted r).Nodup :=
    (Text.sortByTexts_perm _ _).nodup_iff.2 models.nodup
  rw [hids, List.nodup_append, and_iff_left ⟨hfurther.once, hdisjoint⟩, hmodels,
    List.nodup_map_iff_inj_on hsorted]
  simp only [ModelSet.mem_sorted]

/-! ## Printed forms -/

theorem exists_mentionedAt_of_stands (h : r.Stands models t) :
    ∃ k, r.MentionedAt models k t := by
  obtain ⟨k, hk⟩ := h
  obtain ⟨j, _, hj⟩ := mem_met_iff.1 hk
  exact ⟨j, mentionedAt_of_mem_layer hj⟩

/-- Some reference stands for the printed form of a member type. -/
theorem IsMember.exists_stands (h : r.IsMember models u) : ∃ j k v, r.MentionedAt models j u ∧
    r.MentionedAt models k v ∧ r.Stands models v ∧ r.display v = r.display u := by
  obtain ⟨t, hstands, hu⟩ := h
  obtain ⟨j, ht⟩ := exists_mentionedAt_of_stands hstands
  have hmember := ht.member hstands hu
  obtain ⟨v, hv, hdisplay⟩ := List.mem_map.1 (display_mem_met hmember)
  have hvstands : r.Stands models v := ⟨_, hv⟩
  obtain ⟨k, hk⟩ := exists_mentionedAt_of_stands hvstands
  exact ⟨j + 1, k, v, hmember, hk, hvstands, hdisplay⟩

theorem qualifiedName_manifestEntry {id : TypeId} {d : TypeDef} (ht : t.declaredId? = some id)
    (hd : r.get? id = some d) : (r.manifestEntry t).qualifiedName = d.signature := by
  simp [manifestEntry, ht, hd, TypeDef.signature]

theorem PrintsApart.tellsTypes (hprints : r.PrintsApart models)
    (h : r.manifest models = .ok entries) : r.TellsTypes models entries := by
  refine ⟨(ids_nodup_iff h).2 fun a ha b hb hname => ?_, fun u id d hu hid hd => ?_⟩
  · have hdisplay : r.display (.declared a []) = r.display (.declared b []) := by
      rw [display_model, display_model, hname]
    exact Option.some.inj (hprints 0 0 _ _ (.model ha) (.model hb) hdisplay)
  · obtain ⟨j, k, v, hmember, hmentioned, hstands, hdisplay⟩ := hu.exists_stands
    have hv : v.declaredId? = some id := by
      rw [hprints k j v u hmentioned hmember hdisplay, hid]
    exact (exists_entry_iff h).2 ⟨v, hstands, qualifiedName_manifestEntry hv hd⟩

/-- The entries tell the types apart exactly if the models of the set have different names and each
declared type of a member is that of a reference that stands for its printed form. That is so if no
two mentioned types print alike. -/
theorem tellsTypes_iff (h : r.manifest models = .ok entries) :
    (r.TellsTypes models entries ↔
      (∀ a ∈ models, ∀ b ∈ models, r.qualifiedName a = r.qualifiedName b → a = b) ∧
      ∀ u id d, r.IsMember models u → u.declaredId? = some id → r.get? id = some d →
        ∃ v, r.Stands models v ∧ (r.manifestEntry v).qualifiedName = d.signature) ∧
    (r.PrintsApart models → r.TellsTypes models entries) := by
  refine ⟨?_, fun hprints => hprints.tellsTypes h⟩
  rw [← ids_nodup_iff h]
  constructor
  · rintro ⟨hids, hown⟩
    exact ⟨hids, fun u id d hu hid hd => (exists_entry_iff h).1 (hown u id d hu hid hd)⟩
  · rintro ⟨hids, hstand⟩
    exact ⟨hids, fun u id d hu hid hd => (exists_entry_iff h).2 (hstand u id d hu hid hd)⟩

theorem eq_of_mentionedAt_labelledBox (h : labelledBox.MentionedAt boxes k t) :
    t = .declared ⟨0⟩ [] ∨ t = .declared ⟨1⟩ [] := by
  induction h with
  | model hid =>
    rw [boxes, ModelSet.mem_ofList, List.mem_singleton] at hid
    exact .inl (by rw [hid])
  | member _ _ hu ih =>
    rcases ih with rfl | rfl
    · exact .inr (List.mem_singleton.1 hu)
    · exact .inl (List.mem_singleton.1 hu)

theorem printsApart_labelledBox : labelledBox.PrintsApart boxes := by
  intro j k t u ht hu hdisplay
  have hbox : labelledBox.display (.declared ⟨0⟩ []) = "Box" := by decide +kernel
  have hlabel : labelledBox.display (.declared ⟨1⟩ []) = "Label" := by decide +kernel
  rcases eq_of_mentionedAt_labelledBox ht with rfl | rfl <;>
    rcases eq_of_mentionedAt_labelledBox hu with rfl | rfl
  · rfl
  · rw [hbox, hlabel] at hdisplay
    simp at hdisplay
  · rw [hbox, hlabel] at hdisplay
    simp at hdisplay
  · rfl

theorem tellsTypes_iff_labelledBox : ∃ entries, labelledBox.manifest boxes = .ok entries ∧
    labelledBox.PrintsApart boxes ∧ labelledBox.TellsTypes boxes entries := by
  have hok : (labelledBox.manifest boxes).toOption.isSome = true := by decide +kernel
  cases hmanifest : labelledBox.manifest boxes with
  | error e => simp [hmanifest, Except.toOption] at hok
  | ok entries =>
    exact ⟨entries, rfl, printsApart_labelledBox,
      (tellsTypes_iff hmanifest).2 printsApart_labelledBox⟩

/-- Two modules with a structure `Label`. A box has a label of its own module and a crate, and the
crate has a label of the other module. -/
def crate : Registry where
  types :=
    [⟨⟨"Depot", "", "Box", .classType⟩, { Body.empty with
        properties := [plainProperty "Label" (.declared ⟨1⟩ []),
          plainProperty "Crate" (.declared ⟨2⟩ [])] }⟩,
      ⟨⟨"Depot", "", "Label", .structType⟩, .empty⟩,
      ⟨⟨"Shop", "", "Crate", .structType⟩,
        { Body.empty with properties := [plainProperty "Label" (.declared ⟨3⟩ [])] }⟩,
      ⟨⟨"Shop", "", "Label", .structType⟩, .empty⟩]
  nodup := by decide

/-- The crate, which stands for its printed form, has the label of its own module. -/
theorem isMember_crate : crate.IsMember boxes (.declared ⟨3⟩ []) := by
  have hcrate : ∃ t ∈ crate.met boxes 1, t.declaredId? = some ⟨2⟩ := by decide +kernel
  obtain ⟨t, ht, hid⟩ := hcrate
  refine ⟨t, ⟨1, ht⟩, ?_⟩
  cases t with
  | declared id args =>
    obtain rfl := Option.some.inj hid
    exact .head _
  | external type args => simp [TypeRef.declaredId?] at hid
  | array element => simp [TypeRef.declaredId?] at hid

/-- The label of the crate has no entry. -/
theorem not_tellsTypes_crate : ∃ entries, crate.manifest boxes = .ok entries ∧
    entries.map (·.qualifiedName) = ["Box, Depot", "Label, Depot", "Crate, Shop"] ∧
    ¬ crate.TellsTypes boxes entries := by
  have hnames : (crate.manifest boxes).toOption.map (·.map (·.qualifiedName)) =
      some ["Box, Depot", "Label, Depot", "Crate, Shop"] := by
    decide +kernel
  cases hmanifest : crate.manifest boxes with
  | error e => simp [hmanifest, Except.toOption] at hnames
  | ok entries =>
    have hnames : entries.map (·.qualifiedName) =
        ["Box, Depot", "Label, Depot", "Crate, Shop"] := by
      rw [hmanifest] at hnames
      exact Option.some.inj hnames
    refine ⟨entries, rfl, hnames, fun htells => ?_⟩
    obtain ⟨e, he, hname⟩ := htells.own _ ⟨3⟩ _ isMember_crate rfl rfl
    have hlabel : "Label, Shop" ∈ entries.map (·.qualifiedName) :=
      List.mem_map.2 ⟨e, he, hname⟩
    rw [hnames] at hlabel
    simp at hlabel

end Registry

end ApiClient
