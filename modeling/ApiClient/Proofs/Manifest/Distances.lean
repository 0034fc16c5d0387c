import ApiClient.Manifest
import Mathlib.Data.List.Chain

/-!
# What a manifest covers

The types of a manifest are met breadth first: the models of the set, then what they mention, then
what those mention. Of a printed form the first reference met stands for all others.

* `met`, `Stands`: the references met up to a distance, in order; those met at any distance.
* `MentionedAt`, `FirstAt`: the distances at which a reference is mentioned and at which a printed
  form is mentioned first.

Results:
* `map_display_layer_iff`: the layers are the distances.
* `manifest_eq`: a manifest has the references met within `maxPasses`, if there are no others.
* `exists_path`: a far reference is mentioned through types of different printed forms.
* `manifest_breadthFirst`: when a manifest is given up, and what it has otherwise.
-/

namespace ApiClient

namespace Registry

variable {r : Registry} {models : ModelSet} {j k : ℕ} {t u : TypeRef} {x : String}

/-! ## Distances -/

/-- The models of a set as references, in order. -/
def modelRefs (r : Registry) (models : ModelSet) : List TypeRef :=
  (models.sorted r).map fun id => .declared id []

/-- The models, then what the given references mention, each printed form where it is met first. -/
def mentionedBy (r : Registry) (models : ModelSet) (refs : List TypeRef) : List TypeRef :=
  r.modelRefs models ++
    distinctBy r.display ((r.modelRefs models).map r.display) (refs.flatMap r.memberTypes)

/-- The references met up to a distance from the models. -/
def met (r : Registry) (models : ModelSet) : ℕ → List TypeRef
  | 0 => r.modelRefs models
  | k + 1 => r.mentionedBy models (met r models k)

/-- The reference stands for its printed form: it is a model, or no other was met before it. -/
def Stands (r : Registry) (models : ModelSet) (t : TypeRef) : Prop :=
  ∃ k, t ∈ r.met models k

/-- The distances at which a reference is mentioned: a model at distance 0, a member type one
further than a reference that has it and stands for its printed form. -/
inductive MentionedAt (r : Registry) (models : ModelSet) : ℕ → TypeRef → Prop
  | model {id : TypeId} (h : id ∈ models) : MentionedAt r models 0 (.declared id [])
  | member {k : ℕ} {t u : TypeRef} (ht : MentionedAt r models k t) (hstands : r.Stands models t)
    (hu : u ∈ r.memberTypes t) : MentionedAt r models (k + 1) u

/-- The least distance at which a printed form is mentioned. -/
def FirstAt (r : Registry) (models : ModelSet) (k : ℕ) (x : String) : Prop :=
  (∃ t, r.MentionedAt models k t ∧ r.display t = x) ∧
    ∀ j < k, ∀ t, r.MentionedAt models j t → r.display t ≠ x

theorem FirstAt.eq (hj : r.FirstAt models j x) (hk : r.FirstAt models k x) : j = k := by
  obtain ⟨⟨t, ht, hx⟩, hbefore⟩ := hj
  obtain ⟨⟨t', ht', hx'⟩, hbefore'⟩ := hk
  have hle : k ≤ j := not_lt.1 fun hlt => hbefore' j hlt t ht hx
  have hge : j ≤ k := not_lt.1 fun hlt => hbefore k hlt t' ht' hx'
  omega

/-! ## Layers -/

/-- The references whose printed form is met first at a distance. -/
def layer (r : Registry) (models : ModelSet) : ℕ → List TypeRef
  | 0 => r.modelRefs models
  | k + 1 =>
    distinctBy r.display ((r.met models k).map r.display)
      ((layer r models k).flatMap r.memberTypes)

theorem mem_map_mentionedBy {refs : List TypeRef} :
    x ∈ (r.mentionedBy models refs).map r.display ↔
      x ∈ (r.modelRefs models).map r.display ∨
        x ∈ (refs.flatMap r.memberTypes).map r.display := by
  rw [mentionedBy, List.map_append, List.mem_append, mem_map_distinctBy]
  tauto

theorem met_succ (r : Registry) (models : ModelSet) (k : ℕ) :
    r.met models (k + 1) = r.met models k ++ r.layer models (k + 1) := by
  induction k with
  | zero => rfl
  | succ k ih =>
    have hdisplays : ∀ x, x ∈ (r.modelRefs models).map r.display ++
        ((r.met models k).flatMap r.memberTypes).map r.display ↔
          x ∈ (r.met models (k + 1)).map r.display := by
      intro x
      rw [met, mem_map_mentionedBy, List.mem_append]
    have hmet : r.met models (k + 2) = r.met models (k + 1) ++
        distinctBy r.display ((r.met models (k + 1)).map r.display)
          ((r.layer models (k + 1)).flatMap r.memberTypes) := by
      rw [← distinctBy_congr hdisplays]
      change r.mentionedBy models (r.met models (k + 1)) =
        r.mentionedBy models (r.met models k) ++ _
      rw [ih, mentionedBy, List.flatMap_append, distinctBy_append, ← List.append_assoc]
      rfl
    exact hmet

theorem layer_ne_nil_of_le (h : j ≤ k) (hk : r.layer models k ≠ []) :
    r.layer models j ≠ [] := by
  induction h with
  | refl => exact hk
  | step _ ih =>
    refine ih fun hnil => hk ?_
    rw [layer, hnil]
    rfl

/-- Nothing is met behind an empty layer. -/
theorem met_eq_of_layer_eq_nil (hk : r.layer models (k + 1) = []) (h : k ≤ j) :
    r.met models j = r.met models k := by
  induction h with
  | refl => rfl
  | step h ih =>
    rename_i j
    have hnil : r.layer models (j + 1) = [] := by
      by_contra hne
      exact layer_ne_nil_of_le (Nat.succ_le_succ h) hne hk
    rw [met_succ, hnil, List.append_nil, ih]

theorem mem_met_of_le (h : j ≤ k) (ht : t ∈ r.met models j) : t ∈ r.met models k := by
  induction h with
  | refl => exact ht
  | step _ ih =>
    rw [met_succ]
    exact List.mem_append_left _ ih

theorem mem_met_of_mem_layer (ht : t ∈ r.layer models k) : t ∈ r.met models k := by
  cases k with
  | zero => exact ht
  | succ k =>
    rw [met_succ]
    exact List.mem_append_right _ ht

theorem mem_met_iff : t ∈ r.met models k ↔ ∃ j ≤ k, t ∈ r.layer models j := by
  constructor
  · intro h
    induction k with
    | zero => exact ⟨0, le_rfl, h⟩
    | succ k ih =>
      rw [met_succ, List.mem_append] at h
      rcases h with h | h
      · obtain ⟨j, hj, ht⟩ := ih h
        exact ⟨j, by omega, ht⟩
      · exact ⟨k + 1, le_rfl, h⟩
  · rintro ⟨j, hj, ht⟩
    exact mem_met_of_le hj (mem_met_of_mem_layer ht)

/-- A reference of a layer is new: no reference met before has its printed form. -/
theorem display_not_mem_met (ht : t ∈ r.layer models k) (h : j < k) :
    r.display t ∉ (r.met models j).map r.display := by
  obtain ⟨k, rfl⟩ : ∃ i, k = i + 1 := ⟨k - 1, by omega⟩
  intro hmem
  obtain ⟨u, hu, he⟩ := List.mem_map.1 hmem
  refine (mem_distinctBy ht).2 ?_
  rw [← he]
  exact List.mem_map_of_mem (mem_met_of_le (by omega) hu)

theorem mentionedAt_of_mem_layer (h : t ∈ r.layer models k) : r.MentionedAt models k t := by
  induction k generalizing t with
  | zero =>
    obtain ⟨id, hid, rfl⟩ := List.mem_map.1 h
    exact .model (ModelSet.mem_sorted.1 hid)
  | succ k ih =>
    obtain ⟨u, hu, ht⟩ := List.mem_flatMap.1 (mem_distinctBy h).1
    exact .member (ih hu) ⟨k, mem_met_of_mem_layer hu⟩ ht

/-- A printed form is met at the latest at the distances at which it is mentioned. -/
theorem display_mem_met (h : r.MentionedAt models k t) :
    r.display t ∈ (r.met models k).map r.display := by
  induction h with
  | model hid => exact List.mem_map_of_mem (List.mem_map_of_mem (ModelSet.mem_sorted.2 hid))
  | member ht hstands hu ih =>
    rename_i k t u
    -- `t` is in a layer up to `k`: behind it, its printed form would have been met already.
    obtain ⟨j, hj⟩ := hstands
    obtain ⟨i, _, hlayer⟩ := mem_met_iff.1 hj
    have hi : i ≤ k := not_lt.1 fun hlt => display_not_mem_met hlayer hlt ih
    have hmet : t ∈ r.met models k := mem_met_iff.2 ⟨i, hi, hlayer⟩
    have hmember : r.display u ∈ ((r.met models k).flatMap r.memberTypes).map r.display :=
      List.mem_map_of_mem (List.mem_flatMap.2 ⟨t, hmet, hu⟩)
    rw [met]
    exact mem_map_mentionedBy.2 (.inr hmember)

/-- The layers are the distances. -/
theorem map_display_layer_iff :
    x ∈ (r.layer models k).map r.display ↔ r.FirstAt models k x := by
  constructor
  · intro h
    obtain ⟨t, ht, rfl⟩ := List.mem_map.1 h
    refine ⟨⟨t, mentionedAt_of_mem_layer ht, rfl⟩, fun j hj u hu he => ?_⟩
    have hmet := display_mem_met hu
    rw [he] at hmet
    exact display_not_mem_met ht hj hmet
  · rintro ⟨⟨t, ht, rfl⟩, hbefore⟩
    obtain ⟨u, hu, he⟩ := List.mem_map.1 (display_mem_met ht)
    obtain ⟨j, hj, hlayer⟩ := mem_met_iff.1 hu
    have hjk : j = k := by
      by_contra hne
      exact hbefore j (by omega) u (mentionedAt_of_mem_layer hlayer) he
    rw [← he, ← hjk]
    exact List.mem_map_of_mem hlayer

/-- Something is further than `k` exactly if something is right behind `k`. -/
theorem layer_succ_ne_nil_iff :
    r.layer models (k + 1) ≠ [] ↔ ∃ j x, k < j ∧ r.FirstAt models j x := by
  constructor
  · intro h
    obtain ⟨t, ht⟩ := List.exists_mem_of_ne_nil _ h
    exact ⟨k + 1, r.display t, by omega, map_display_layer_iff.1 (List.mem_map_of_mem ht)⟩
  · rintro ⟨j, x, hj, hx⟩
    obtain ⟨t, ht, _⟩ := List.mem_map.1 (map_display_layer_iff.2 hx)
    exact layer_ne_nil_of_le hj (List.ne_nil_of_mem ht)

/-- What is met later is not nearer. -/
theorem pairwise_met (k : ℕ) : (r.met models k).Pairwise fun t u =>
    ∀ i j, r.FirstAt models i (r.display t) → r.FirstAt models j (r.display u) → i ≤ j := by
  have hlayer : ∀ k t, t ∈ r.layer models k → r.FirstAt models k (r.display t) :=
    fun k t ht => map_display_layer_iff.1 (List.mem_map_of_mem ht)
  have hsame : ∀ k, (r.layer models k).Pairwise fun t u =>
      ∀ i j, r.FirstAt models i (r.display t) → r.FirstAt models j (r.display u) → i ≤ j := by
    refine fun k => List.pairwise_of_forall_mem_list fun t ht u hu i j hi hj => ?_
    rw [hi.eq (hlayer k t ht), hj.eq (hlayer k u hu)]
  induction k with
  | zero => exact hsame 0
  | succ k ih =>
    rw [met_succ]
    refine List.pairwise_append.2 ⟨ih, hsame (k + 1), fun t ht u hu i j hi hj => ?_⟩
    obtain ⟨i', hi', ht'⟩ := mem_met_iff.1 ht
    rw [hi.eq (hlayer i' t ht'), hj.eq (hlayer (k + 1) u hu)]
    omega

/-- The types through which a far reference is mentioned have different printed forms. -/
theorem exists_path (h : t ∈ r.layer models k) : ∃ ts : List TypeRef, ts.length = k ∧
    (t :: ts).IsChain (fun u v => u ∈ r.memberTypes v) ∧ ((t :: ts).map r.display).Nodup ∧
    ∀ u ∈ ts, ∃ j < k, u ∈ r.layer models j := by
  induction k generalizing t with
  | zero => exact ⟨[], rfl, .singleton t, by simp, by simp⟩
  | succ k ih =>
    obtain ⟨u, hu, ht⟩ := List.mem_flatMap.1 (mem_distinctBy h).1
    obtain ⟨us, hlength, hchain, hnodup, hlayers⟩ := ih hu
    have hnear : ∀ v ∈ u :: us, ∃ j < k + 1, v ∈ r.layer models j := by
      intro v hv
      rcases List.mem_cons.1 hv with rfl | hv
      · exact ⟨k, by omega, hu⟩
      · obtain ⟨j, hj, hv⟩ := hlayers v hv
        exact ⟨j, by omega, hv⟩
    refine ⟨u :: us, by simp [hlength], .cons_cons ht hchain, ?_, hnear⟩
    refine List.nodup_cons.2 ⟨fun hmem => ?_, hnodup⟩
    obtain ⟨v, hv, he⟩ := List.mem_map.1 hmem
    obtain ⟨j, hj, hvj⟩ := hnear v hv
    refine display_not_mem_met h hj ?_
    rw [← he]
    exact List.mem_map_of_mem (mem_met_of_mem_layer hvj)

/-! ## The manifest -/

@[simp] theorem id_manifestEntry (r : Registry) (t : TypeRef) :
    (r.manifestEntry t).id = r.display t := by
  unfold manifestEntry
  split <;> rfl

/-- The members of a described type are those it mentions. -/
theorem map_id_fields_manifestEntry (r : Registry) (t : TypeRef) :
    (r.manifestEntry t).fields.map (·.id) = (r.memberTypes t).map r.display := by
  cases t with
  | declared id args =>
    cases hd : r.get? id with
    | some d =>
      simp [manifestEntry, TypeRef.declaredId?, memberTypes, constantsOf, hd, Function.comp_def]
    | none =>
      have hnone : r.allProperties id = [] := by
        simp [allProperties, ancestors, chain, baseId?, ownProperties, hd]
      simp [manifestEntry, TypeRef.declaredId?, memberTypes, constantsOf, hd, hnone]
  | external type args => rfl
  | array element => rfl

/-- The types that a pass finds missing are those of the next layer. -/
theorem missing_eq {present : List String}
    (hpresent : ∀ x, x ∈ present ↔ x ∈ (r.met models k).map r.display) :
    distinctBy r.display present ((r.layer models k).flatMap r.memberTypes) =
      r.layer models (k + 1) :=
  distinctBy_congr hpresent _

/-- The invariant of the passes: what is present is what was met. -/
theorem manifestLayers_eq {present : List String} {nearer : List TypeRef}
    (hpresent : ∀ x, x ∈ present ↔ x ∈ (r.met models k).map r.display)
    (hmet : r.met models k = nearer ++ r.layer models k) (passes : ℕ) :
    (r.manifestLayers passes present (r.layer models k)).map (nearer.map r.manifestEntry ++ ·) =
      if r.layer models (k + passes + 1) = [] then
        .ok ((r.met models (k + passes)).map r.manifestEntry)
      else .error (.schemaDiverged maxPasses) := by
  induction passes generalizing k present nearer with
  | zero =>
    have hlast : r.met models (k + 0) = nearer ++ r.layer models k := hmet
    rw [manifestLayers, missing_eq hpresent, Nat.add_zero, hlast, List.map_append]
    by_cases hnil : r.layer models (k + 1) = []
    · rw [if_pos hnil, if_pos (by simp [hnil])]
      rfl
    · rw [if_neg hnil, if_neg (by simp [hnil])]
      rfl
  | succ passes ih =>
    rw [manifestLayers, missing_eq hpresent]
    by_cases hnil : r.layer models (k + 1) = []
    · -- The passes that are left would find nothing either.
      have hlast : r.layer models (k + (passes + 1) + 1) = [] := by
        by_contra hne
        exact layer_ne_nil_of_le (by omega) hne hnil
      rw [if_pos hlast, if_pos (by simp [hnil]), met_eq_of_layer_eq_nil hnil (by omega), hmet,
        List.map_append]
      rfl
    · have hnext : ∀ x, x ∈ (r.layer models (k + 1)).map r.display ++ present ↔
          x ∈ (r.met models (k + 1)).map r.display := by
        intro x
        rw [met_succ, List.map_append, List.mem_append, List.mem_append, hpresent, or_comm]
      have hpasses := ih hnext (met_succ r models k)
      rw [hmet, List.map_append] at hpasses
      rw [if_neg (by simp [hnil]), show k + (passes + 1) = k + 1 + passes by omega, ← hpasses]
      cases r.manifestLayers passes _ (r.layer models (k + 1)) with
      | error e => rfl
      | ok entries => simp [Except.map]

/-- The manifest has what is met within the passes, if nothing is further away. -/
theorem manifest_eq (r : Registry) (models : ModelSet) :
    r.manifest models =
      if r.layer models (maxPasses + 1) = [] then
        .ok ((r.met models maxPasses).map r.manifestEntry)
      else .error (.schemaDiverged maxPasses) := by
  have hlayers : (r.manifest models).map ([].map r.manifestEntry ++ ·) = _ :=
    manifestLayers_eq (k := 0) (fun _ => Iff.rfl) rfl maxPasses
  rw [Nat.zero_add] at hlayers
  rw [← hlayers]
  cases r.manifest models <;> rfl

theorem manifest_eq_ok_iff {entries : List ManifestEntry} :
    r.manifest models = .ok entries ↔ r.layer models (maxPasses + 1) = [] ∧
      (r.met models maxPasses).map r.manifestEntry = entries := by
  rw [manifest_eq]
  split <;> simp_all

/-- Further references follow the models in the order in which they are mentioned first, each
printed form once, and nothing that is mentioned is left out. -/
structure BreadthFirst (r : Registry) (models : ModelSet) (further : List TypeRef) : Prop where
  inOrder : r.modelRefs models ++ further = r.mentionedBy models (r.modelRefs models ++ further)
  once : (further.map r.display).Nodup
  isNew : ∀ t ∈ further, r.display t ∉ (r.modelRefs models).map r.display
  reached : ∀ x, x ∈ (r.modelRefs models ++ further).map r.display ↔ ∃ k, r.FirstAt models k x
  byDistance : (r.modelRefs models ++ further).Pairwise fun t u =>
    ∀ i j, r.FirstAt models i (r.display t) → r.FirstAt models j (r.display u) → i ≤ j

theorem exists_breadthFirst (h : r.layer models (k + 1) = []) : ∃ further,
    r.met models k = r.modelRefs models ++ further ∧ r.BreadthFirst models further := by
  have hclosed : r.met models k = r.mentionedBy models (r.met models k) :=
    (met_eq_of_layer_eq_nil h (by omega) : r.met models (k + 1) = _).symm
  refine ⟨_, hclosed, ?_, map_distinctBy_nodup _ _ _, fun t ht => (mem_distinctBy ht).2,
    fun x => ?_, ?_⟩
  · rw [← mentionedBy, ← hclosed]
    exact hclosed
  · rw [← mentionedBy, ← hclosed]
    constructor
    · intro hx
      obtain ⟨t, ht, rfl⟩ := List.mem_map.1 hx
      obtain ⟨j, _, hlayer⟩ := mem_met_iff.1 ht
      exact ⟨j, map_display_layer_iff.1 (List.mem_map_of_mem hlayer)⟩
    · rintro ⟨j, hx⟩
      obtain ⟨t, ht, rfl⟩ := List.mem_map.1 (map_display_layer_iff.2 hx)
      have hj : j ≤ k := by
        by_contra hlt
        exact layer_ne_nil_of_le (Nat.lt_of_not_le hlt) (List.ne_nil_of_mem ht) h
      exact List.mem_map_of_mem (mem_met_iff.2 ⟨j, hj, ht⟩)
  · rw [← mentionedBy, ← hclosed]
    exact pairwise_met k

/-- What an entry mentions has an entry. -/
theorem BreadthFirst.exists_entry {further : List TypeRef} (h : r.BreadthFirst models further)
    {e : ManifestEntry} (he : e ∈ (r.modelRefs models ++ further).map r.manifestEntry)
    {f : ManifestField} (hf : f ∈ e.fields) :
    ∃ e' ∈ (r.modelRefs models ++ further).map r.manifestEntry, e'.id = f.id := by
  obtain ⟨t, ht, rfl⟩ := List.mem_map.1 he
  have hid : f.id ∈ (r.memberTypes t).map r.display := by
    rw [← map_id_fields_manifestEntry]
    exact List.mem_map_of_mem hf
  obtain ⟨u, hu, hid⟩ := List.mem_map.1 hid
  have hmentioned : r.display u ∈
      ((r.modelRefs models ++ further).flatMap r.memberTypes).map r.display :=
    List.mem_map_of_mem (List.mem_flatMap.2 ⟨t, ht, hu⟩)
  have hmem : r.display u ∈ (r.modelRefs models ++ further).map r.display := by
    rw [h.inOrder]
    exact mem_map_mentionedBy.2 (.inr hmentioned)
  obtain ⟨v, hv, hdisplay⟩ := List.mem_map.1 hmem
  refine ⟨r.manifestEntry v, List.mem_map_of_mem hv, ?_⟩
  rw [id_manifestEntry, hdisplay, hid]

/-- A manifest is given up exactly if a printed form is first mentioned at a distance of more than
100, and then more than 101 types of different printed forms mention each other in turn. Otherwise
it has the models and then, breadth first, what they mention, and whatever an entry mentions has an
entry. -/
theorem manifest_breadthFirst (r : Registry) (models : ModelSet) :
    (r.manifest models = .error (.schemaDiverged 100) ↔ ∃ k x, 100 < k ∧ r.FirstAt models k x) ∧
    (r.manifest models = .error (.schemaDiverged 100) → ∃ ts : List TypeRef, 101 < ts.length ∧
      ts.IsChain (fun u t => u ∈ r.memberTypes t) ∧ (ts.map r.display).Nodup) ∧
    ((∀ k x, r.FirstAt models k x → k ≤ 100) → ∃ further,
      r.manifest models = .ok ((r.modelRefs models ++ further).map r.manifestEntry) ∧
      r.BreadthFirst models further ∧
      ∀ e ∈ (r.modelRefs models ++ further).map r.manifestEntry, ∀ f ∈ e.fields,
        ∃ e' ∈ (r.modelRefs models ++ further).map r.manifestEntry, e'.id = f.id) := by
  have hmanifest := manifest_eq r models
  rw [show maxPasses = 100 from rfl] at hmanifest
  have hdiverged : r.manifest models = .error (.schemaDiverged 100) ↔
      r.layer models 101 ≠ [] := by
    rw [hmanifest]
    split <;> simp_all
  refine ⟨hdiverged.trans layer_succ_ne_nil_iff, fun herror => ?_, fun hnear => ?_⟩
  · obtain ⟨t, ht⟩ := List.exists_mem_of_ne_nil _ (hdiverged.1 herror)
    obtain ⟨ts, hlength, hchain, hnodup, _⟩ := exists_path ht
    exact ⟨t :: ts, by rw [List.length_cons, hlength]; omega, hchain, hnodup⟩
  · have hlast : r.layer models 101 = [] := by
      by_contra hne
      obtain ⟨k, x, hk, hx⟩ := layer_succ_ne_nil_iff.1 hne
      exact absurd (hnear k x hx) (by omega)
    obtain ⟨further, hmet, hfurther⟩ := exists_breadthFirst hlast
    rw [if_pos hlast, hmet] at hmanifest
    exact ⟨further, hmanifest, hfurther, fun e he f hf => hfurther.exists_entry he hf⟩

/-- A property without markers and documentation. -/
def plainProperty (name : String) (type : TypeRef) : PropertyDef :=
  ⟨name, type, .empty, none⟩

/-- A box and its label, which mention each other. -/
def labelledBox : Registry where
  types :=
    [⟨⟨"Depot", "", "Box", .classType⟩,
        { Body.empty with properties := [plainProperty "Label" (.declared ⟨1⟩ [])] }⟩,
      ⟨⟨"Depot", "", "Label", .structType⟩,
        { Body.empty with properties := [plainProperty "Box" (.declared ⟨0⟩ [])] }⟩]
  nodup := by decide

/-- The set of the box. -/
def boxes : ModelSet := .ofList [⟨0⟩]

theorem manifest_breadthFirst_labelledBox :
    (∀ k x, labelledBox.FirstAt boxes k x → k ≤ 100) ∧ ∃ further,
      labelledBox.manifest boxes =
        .ok ((labelledBox.modelRefs boxes ++ further).map labelledBox.manifestEntry) ∧
      labelledBox.BreadthFirst boxes further := by
  have hlast : labelledBox.layer boxes 2 = [] := List.isEmpty_iff.1 (by decide +kernel)
  have hnear : ∀ k x, labelledBox.FirstAt boxes k x → k ≤ 100 := by
    intro k x hx
    by_contra hfar
    exact layer_succ_ne_nil_iff.2 ⟨k, x, by omega, hx⟩ hlast
  obtain ⟨further, hmanifest, hfurther, _⟩ :=
    (manifest_breadthFirst labelledBox boxes).2.2 hnear
  exact ⟨hnear, further, hmanifest, hfurther⟩

end Registry

end ApiClient
