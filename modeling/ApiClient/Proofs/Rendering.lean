import ApiClient.Proofs.Disk.Entries
import ApiClient.Template.Catalog
import Mathlib.Data.List.Forall2

/-!
# Texts of parts

The text of a template is that of its parts one after the other. So the text of a part stands within
it, as does that of any run of parts, and a repetition holds the text for each of its items.

Results:
* `exists_of_infix`: the text of a run of parts stands within that of all parts.
* `exists_of_choice`: a choice has the text of the parts that are chosen.
* `exists_of_each`: a repetition has the text for each item; `exists_eq_join_of_each`: and no other
  text, in the order of the items.
* `renderParts_congr`: the text of parts depends only on the values that they look up.
* `exists_concat_iff`: a repetition has a text exactly if each of its items has one.
-/

namespace ApiClient

/-- The text stands within another one. -/
def Text.IsWithin (a b : String) : Prop :=
  a.toList <:+: b.toList

namespace Text.IsWithin

variable {a b c : String}

theorem of_toList (before after : String)
    (h : before.toList ++ a.toList ++ after.toList = b.toList) : IsWithin a b :=
  ⟨before.toList, after.toList, h⟩

theorem refl (a : String) : IsWithin a a :=
  List.infix_rfl

theorem trans (h : IsWithin a b) (h' : IsWithin b c) : IsWithin a c :=
  List.IsInfix.trans h h'

theorem append_left (h : IsWithin a b) (c : String) : IsWithin a (c ++ b) := by
  rw [IsWithin, String.toList_append]
  exact List.IsInfix.trans h (List.suffix_append _ _).isInfix

theorem append_right (h : IsWithin a b) (c : String) : IsWithin a (b ++ c) := by
  rw [IsWithin, String.toList_append]
  exact List.IsInfix.trans h (List.prefix_append _ _).isInfix

end Text.IsWithin

namespace Template

open Json Text

variable {context : Value} {text : String}

/-! ## Runs of parts -/

theorem renderParts_cons_eq_ok {p : Part} {ps : List Part} :
    renderParts (p :: ps) context = .ok text ↔
      ∃ a b, renderPart p context = .ok a ∧ renderParts ps context = .ok b ∧ text = a ++ b := by
  simp only [renderParts, Disk.bind_eq_ok, Except.ok.injEq]
  constructor
  · rintro ⟨a, ha, b, hb, rfl⟩
    exact ⟨a, b, ha, hb, rfl⟩
  · rintro ⟨a, b, ha, hb, rfl⟩
    exact ⟨a, ha, b, hb, rfl⟩

theorem renderParts_append_eq_ok {ps qs : List Part} :
    renderParts (ps ++ qs) context = .ok text ↔
      ∃ a b, renderParts ps context = .ok a ∧ renderParts qs context = .ok b ∧ text = a ++ b := by
  induction ps generalizing text with
  | nil => simp [renderParts]
  | cons p ps ih =>
    simp only [List.cons_append, renderParts_cons_eq_ok, ih]
    constructor
    · rintro ⟨a, _, ha, ⟨b, c, hb, hc, rfl⟩, rfl⟩
      exact ⟨a ++ b, c, ⟨a, b, ha, hb, rfl⟩, hc, String.append_assoc.symm⟩
    · rintro ⟨_, c, ⟨a, b, ha, hb, rfl⟩, hc, rfl⟩
      exact ⟨a, b ++ c, ha, ⟨b, c, hb, hc, rfl⟩, String.append_assoc⟩

theorem renderParts_eq_join {ps : List Part} {texts : List String}
    (h : List.Forall₂ (fun p a => renderPart p context = .ok a) ps texts) :
    renderParts ps context = .ok (String.join texts) := by
  induction h with
  | nil => rfl
  | cons hp _ ih => exact renderParts_cons_eq_ok.2 ⟨_, _, hp, ih, String.join_cons⟩

/-- Fixed texts stand as they are. -/
theorem renderParts_texts (texts : List String) :
    renderParts (texts.map .text) context = .ok (String.join texts) :=
  renderParts_eq_join (List.forall₂_map_left_iff.2 (List.forall₂_same.2 fun _ _ => rfl))

theorem exists_of_infix {ps qs : List Part} (h : ps <:+: qs)
    (htext : renderParts qs context = .ok text) :
    ∃ a, renderParts ps context = .ok a ∧ IsWithin a text := by
  obtain ⟨before, after, rfl⟩ := h
  obtain ⟨a, _, ha, _, rfl⟩ := renderParts_append_eq_ok.1 htext
  obtain ⟨_, b, _, hb, rfl⟩ := renderParts_append_eq_ok.1 ha
  exact ⟨b, hb, ((IsWithin.refl b).append_left _).append_right _⟩

theorem exists_of_mem {p : Part} {ps : List Part} (h : p ∈ ps)
    (htext : renderParts ps context = .ok text) :
    ∃ a, renderPart p context = .ok a ∧ IsWithin a text := by
  obtain ⟨before, after, rfl⟩ := List.append_of_mem h
  obtain ⟨_, b, _, hb, rfl⟩ := renderParts_append_eq_ok.1 htext
  obtain ⟨a, c, ha, _, rfl⟩ := renderParts_cons_eq_ok.1 hb
  exact ⟨a, ha, ((IsWithin.refl a).append_right c).append_left _⟩

/-! ## Choices and repetitions -/

theorem exists_of_choice {path : Path} {yes no ps : List Part} (h : .choice path yes no ∈ ps)
    (htext : renderParts ps context = .ok text) :
    ∃ a, renderParts (if holds path context then yes else no) context = .ok a ∧
      IsWithin a text := by
  obtain ⟨a, ha, hwithin⟩ := exists_of_mem h htext
  rw [renderPart, ← apply_ite (renderParts · context)] at ha
  exact ⟨a, ha, hwithin⟩

/-- Parts that depend on a key stand in the text if its value is true. -/
theorem exists_of_given {name : String} {parts ps : List Part} (h : given name parts ∈ ps)
    (hholds : holds [name] context = true) (htext : renderParts ps context = .ok text) :
    ∃ a, renderParts parts context = .ok a ∧ IsWithin a text := by
  obtain ⟨a, ha, hwithin⟩ := exists_of_choice h htext
  rw [if_pos hholds] at ha
  exact ⟨a, ha, hwithin⟩

theorem exists_of_concat {f : Value → Except Fault String} {items : List Value} {v : Value}
    (hv : v ∈ items) (htext : concat f items = .ok text) :
    ∃ a, f v = .ok a ∧ IsWithin a text := by
  induction items generalizing text with
  | nil => simp at hv
  | cons item items ih =>
    simp only [concat, Disk.bind_eq_ok, Except.ok.injEq] at htext
    obtain ⟨a, ha, b, hb, rfl⟩ := htext
    rcases List.mem_cons.1 hv with rfl | hv
    · exact ⟨a, ha, (IsWithin.refl a).append_right b⟩
    · obtain ⟨c, hc, hwithin⟩ := ih hv hb
      exact ⟨c, hc, hwithin.append_left a⟩

theorem exists_concat_iff {f : Value → Except Fault String} {items : List Value} :
    (∃ text, concat f items = .ok text) ↔ ∀ v ∈ items, ∃ a, f v = .ok a := by
  induction items with
  | nil => simp [concat]
  | cons item items ih =>
    rw [List.forall_mem_cons, ← ih]
    simp only [concat, Disk.bind_eq_ok, Except.ok.injEq]
    constructor
    · rintro ⟨_, a, ha, b, hb, _⟩
      exact ⟨⟨a, ha⟩, b, hb⟩
    · rintro ⟨⟨a, ha⟩, b, hb⟩
      exact ⟨_, a, ha, b, hb, rfl⟩

theorem exists_of_each {name : String} {body ps : List Part} {items : List Value} {v : Value}
    (h : forEach name body ∈ ps) (hitems : find? [name] context = some (.array items))
    (hv : v ∈ items) (htext : renderParts ps context = .ok text) :
    ∃ a, renderParts body v = .ok a ∧ IsWithin a text := by
  obtain ⟨a, ha, hwithin⟩ := exists_of_mem h htext
  rw [forEach, renderPart, hitems, Option.bind_some, items?] at ha
  cases items with
  | nil => simp at hv
  | cons item items =>
    obtain ⟨b, hb, hb'⟩ := exists_of_concat hv ha
    exact ⟨b, hb, hb'.trans hwithin⟩

theorem exists_eq_join_of_concat {f : Value → Except Fault String} {items : List Value}
    (htext : concat f items = .ok text) :
    ∃ texts, List.Forall₂ (fun v a => f v = .ok a) items texts ∧ text = String.join texts := by
  induction items generalizing text with
  | nil =>
    obtain rfl := Except.ok.inj htext
    exact ⟨[], .nil, rfl⟩
  | cons item items ih =>
    simp only [concat, Disk.bind_eq_ok, Except.ok.injEq] at htext
    obtain ⟨a, ha, b, hb, rfl⟩ := htext
    obtain ⟨texts, htexts, rfl⟩ := ih hb
    exact ⟨a :: texts, .cons ha htexts, String.join_cons.symm⟩

theorem exists_eq_join_of_each {name : String} {body : List Part} {items : List Value}
    (hitems : find? [name] context = some (.array items))
    (htext : renderPart (forEach name body) context = .ok text) :
    ∃ texts, List.Forall₂ (fun v a => renderParts body v = .ok a) items texts ∧
      text = String.join texts := by
  rw [forEach, renderPart, hitems, Option.bind_some, items?] at htext
  cases items with
  | nil =>
    obtain rfl := Except.ok.inj htext
    exact ⟨[], .nil, rfl⟩
  | cons item items => exact exists_eq_join_of_concat htext

/-- Within other parts a repetition has the text for each item, in the order of the items. -/
theorem exists_eq_join_of_mem {list : String} {body ps : List Part} {items : List Value}
    (h : forEach list body ∈ ps) (hitems : find? [list] context = some (.array items))
    (htext : renderParts ps context = .ok text) :
    ∃ left texts right, text = left ++ String.join texts ++ right ∧
      List.Forall₂ (fun v a => renderParts body v = .ok a) items texts := by
  obtain ⟨_, _, rfl⟩ := List.append_of_mem h
  obtain ⟨left, _, _, hrest, rfl⟩ := renderParts_append_eq_ok.1 htext
  obtain ⟨_, right, heach, _, rfl⟩ := renderParts_cons_eq_ok.1 hrest
  obtain ⟨texts, htexts, rfl⟩ := exists_eq_join_of_each hitems heach
  exact ⟨left, texts, right, String.append_assoc.symm, htexts⟩

/-- A repetition whose parts begin with the name of the item between fixed texts. -/
theorem exists_eq_join_of_named {α : Type} {before after list : String} {body ps : List Part}
    {as : List α} {json : α → Value} (name : α → String)
    (h : forEach list (.text before :: key "name" :: .text after :: body) ∈ ps)
    (hitems : find? [list] context = some (.array (as.map json)))
    (hname : ∀ a, find? ["name"] (json a) = some (.string (name a)))
    (htext : renderParts ps context = .ok text) :
    ∃ left texts right, text = left ++ String.join texts ++ right ∧
      List.Forall₂ (fun a text => ∃ rest, text = before ++ name a ++ after ++ rest) as texts := by
  obtain ⟨left, texts, right, htext, htexts⟩ := exists_eq_join_of_mem h hitems htext
  refine ⟨left, texts, right, htext, ?_⟩
  refine (List.forall₂_map_left_iff.1 htexts).imp fun a text htext => ?_
  obtain ⟨_, _, hbefore, hnamed, rfl⟩ := renderParts_cons_eq_ok.1 htext
  obtain ⟨_, _, hvalue, hafter, rfl⟩ := renderParts_cons_eq_ok.1 hnamed
  obtain ⟨_, rest, hrest, _, rfl⟩ := renderParts_cons_eq_ok.1 hafter
  obtain rfl := Except.ok.inj hbefore
  obtain rfl := Except.ok.inj hrest
  rw [key, renderPart, hname] at hvalue
  obtain rfl : name a = _ := Except.ok.inj hvalue
  exact ⟨rest, by simp only [String.append_assoc]⟩

/-- A fixed text. -/
theorem isWithin_of_text {s : String} {ps : List Part} (h : .text s ∈ ps)
    (htext : renderParts ps context = .ok text) : IsWithin s text := by
  obtain ⟨a, ha, hwithin⟩ := exists_of_mem h htext
  obtain rfl := Except.ok.inj ha
  exact hwithin

/-- The text at a path. -/
theorem exists_of_value {path : Path} {ps : List Part} {s : String} (h : .value path ∈ ps)
    (hvalue : find? path context = some (.string s)) (htext : renderParts ps context = .ok text) :
    IsWithin s text := by
  obtain ⟨a, ha, hwithin⟩ := exists_of_mem h htext
  rw [renderPart, hvalue] at ha
  obtain rfl : s = a := Except.ok.inj ha
  exact hwithin

/-! ## Values that parts look up -/

mutual
/-- The paths that a part looks up in its context; inside repetitions the context is another one. -/
def Part.lookups : Part → List Path
  | .text _ => []
  | .value path => [path]
  | .choice path yes no => path :: (lookups yes ++ lookups no)
  | .each path _ otherwise => path :: lookupsElse otherwise
  | .within path _ otherwise => path :: lookupsElse otherwise
/-- The paths that the parts for nothing look up. -/
def lookupsElse : Option (List Part) → List Path
  | some parts => lookups parts
  | none => []
/-- The paths that parts look up in their context. -/
def lookups : List Part → List Path
  | [] => []
  | p :: ps => p.lookups ++ lookups ps
end

variable {context' : Value}

mutual
theorem renderPart_congr : ∀ p : Part,
    (∀ path ∈ p.lookups, find? path context = find? path context') →
    renderPart p context = renderPart p context'
  | .text _, _ => rfl
  | .value path, h => by
    rw [renderPart, renderPart, h path (.head _)]
  | .choice path yes no, h => by
    have hyes := renderParts_congr yes fun path hp => h path (.tail _ (List.mem_append_left _ hp))
    have hno := renderParts_congr no fun path hp => h path (.tail _ (List.mem_append_right _ hp))
    rw [renderPart, renderPart, holds, holds, h path (.head _), hyes, hno]
  | .each path body otherwise, h => by
    have helse := fun absent => renderElse_congr otherwise absent fun path hp => h path (.tail _ hp)
    simp only [renderPart, h path (.head _), helse]
  | .within path body otherwise, h => by
    have helse := fun absent => renderElse_congr otherwise absent fun path hp => h path (.tail _ hp)
    simp only [renderPart, h path (.head _), helse]
theorem renderElse_congr : ∀ (otherwise : Option (List Part)) (absent : Except Fault String),
    (∀ path ∈ lookupsElse otherwise, find? path context = find? path context') →
    renderElse otherwise absent context = renderElse otherwise absent context'
  | some parts, _, h => renderParts_congr parts h
  | none, _, _ => rfl
/-- The text of parts depends only on the values that they look up. -/
theorem renderParts_congr : ∀ ps : List Part,
    (∀ path ∈ lookups ps, find? path context = find? path context') →
    renderParts ps context = renderParts ps context'
  | [], _ => rfl
  | p :: ps, h => by
    have hpart := renderPart_congr p fun path hp => h path (List.mem_append_left _ hp)
    have hparts := renderParts_congr ps fun path hp => h path (List.mem_append_right _ hp)
    rw [renderParts, renderParts, hpart, hparts]
end

end Template

theorem Catalog.render_eq_ok {c : Catalog} {name text : String} {t : Template}
    {context : Json.Value} (h : c.find? name = some t) :
    c.render name context = .ok text ↔ Template.renderParts t context = .ok text := by
  rw [render, h]
  change Except.mapError _ (Template.renderParts t context) = _ ↔ _
  cases Template.renderParts t context <;> simp [Except.mapError]

end ApiClient
