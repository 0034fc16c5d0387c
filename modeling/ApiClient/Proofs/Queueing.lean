import ApiClient.Loading
import Mathlib.Data.List.Nodup

/-!
# Queueing documents

Documents are offered to a loader one after the other, each with the name of its module if it gives
none. One that is refused leaves the loader as it was.

* `Accepts`: the loader queues the document.
* `outcome`: what comes of a document, with the loader that it leaves.
* `addEach`, `accepted`: the loader after all documents; those that it has queued.

Results:
* `typesFault_eq_none_iff`: the types of a document are in order if they have names, all different.
* `outcome_of_accepts`, `outcome_of_not_accepts`: what offering a document does.
* `pending_addEach`: the accepted documents are queued, in the order in which they came.
* `accepted_empty_eq_self_iff`: documents are all accepted if their modules differ and the types of
  each are in order; whether they are does not depend on their order.
-/

namespace ApiClient.Loader

/-- The name of the module of a document. -/
def moduleOf (p : String × ModuleDocument) : String :=
  moduleName p.1 p.2

/-- A document as it is queued. -/
def queued (p : String × ModuleDocument) : String × ModuleDocument :=
  (moduleOf p, p.2)

/-- The module of the document is new, and nothing is wrong with its types. -/
def Accepts (l : Loader) (p : String × ModuleDocument) : Prop :=
  moduleOf p ∉ l.pending.map (·.1) ∧ typesFault [] p.2.types = none

/-- What comes of a document that is offered, with the loader that it leaves. -/
def outcome (l : Loader) (p : String × ModuleDocument) : Except Error Unit × Loader :=
  (queue p.1 p.2).run.run l

/-- The loader after a document is offered. -/
def after (l : Loader) (p : String × ModuleDocument) : Loader :=
  (l.outcome p).2

/-- The loader after documents are offered. -/
def addEach (l : Loader) (docs : List (String × ModuleDocument)) : Loader :=
  docs.foldl after l

/-- The documents that are queued when they are offered one after the other. -/
def accepted (l : Loader) : List (String × ModuleDocument) → List (String × ModuleDocument)
  | [] => []
  | p :: docs =>
    match l.outcome p with
    | (.ok (), l') => p :: l'.accepted docs
    | (.error _, l') => l'.accepted docs

/-! ## Types of a document -/

/-- The types are to be loaded exactly if they all have a name and no two have the same one. -/
theorem typesFault_eq_none_iff {declared : List (String × String)} {ts : List TypeDocument} :
    typesFault declared ts = none ↔ (∀ t ∈ ts, Text.isBlankText t.name = false) ∧
      (ts.map fun t => (t.space, t.name)).Nodup ∧ ∀ t ∈ ts, (t.space, t.name) ∉ declared := by
  induction ts generalizing declared with
  | nil => simp [show typesFault declared [] = none from rfl]
  | cons t ts ih =>
    have hstep : typesFault declared (t :: ts) =
        if Text.isBlankText t.name then some .blankTypeName
        else if (t.space, t.name) ∈ declared then some (.declaredTwice (t.space ++ "." ++ t.name))
        else typesFault ((t.space, t.name) :: declared) ts := rfl
    rw [hstep]
    by_cases hblank : Text.isBlankText t.name = true
    · simp [hblank]
    · by_cases hdeclared : (t.space, t.name) ∈ declared
      · simp [hblank, hdeclared]
      · have hother : (∀ u ∈ ts, (u.space, u.name) ∉ (t.space, t.name) :: declared) ↔
            (t.space, t.name) ∉ ts.map (fun u => (u.space, u.name)) ∧
              ∀ u ∈ ts, (u.space, u.name) ∉ declared := by
          simp only [List.mem_cons, not_or, List.mem_map, not_exists, not_and, forall_and]
        rw [if_neg hblank, if_neg hdeclared, ih, hother, List.map_cons, List.nodup_cons,
          List.forall_mem_cons, List.forall_mem_cons]
        simp only [Bool.eq_false_iff.2 hblank, hdeclared, not_false_eq_true, true_and]
        tauto

/-! ## One document -/

variable {l : Loader} {p : String × ModuleDocument} {docs : List (String × ModuleDocument)}

@[simp] theorem pending_push (q : String × ModuleDocument) :
    (l.push q).pending = l.pending ++ [q] := rfl

@[simp] theorem skipped_push (q : String × ModuleDocument) : (l.push q).skipped = l.skipped := rfl

theorem run_get_bind {α : Type} (f : Loader → Action α) (l : Loader) :
    (get >>= f : Action α).run.run l = (f l).run.run l := rfl

theorem outcome_of_accepts (h : l.Accepts p) : l.outcome p = (.ok (), l.push (queued p)) := by
  have hfault : l.fault? (moduleName p.1 p.2) p.2 = none := by
    have hnew : moduleName p.1 p.2 ∉ l.names := mt (l.mem_names _).1 h.1
    rw [fault?, if_neg hnew, h.2]
  rw [outcome, queue, run_get_bind]
  simp only [hfault]
  rfl

/-- A document that is refused leaves the loader as it was. -/
theorem outcome_of_not_accepts (h : ¬ l.Accepts p) : ∃ e, l.outcome p = (.error e, l) := by
  have hfault : l.fault? (moduleName p.1 p.2) p.2 ≠ none := by
    intro hnone
    rw [fault?] at hnone
    split at hnone
    · simp at hnone
    · exact h ⟨mt (l.mem_names _).2 (by assumption), hnone⟩
  obtain ⟨fault, hfault⟩ := Option.ne_none_iff_exists'.1 hfault
  refine ⟨.moduleLoad (moduleName p.1 p.2) fault, ?_⟩
  rw [outcome, queue, run_get_bind]
  simp only [hfault]
  rfl

theorem after_of_accepts (h : l.Accepts p) : l.after p = l.push (queued p) := by
  rw [after, outcome_of_accepts h]

theorem after_of_not_accepts (h : ¬ l.Accepts p) : l.after p = l := by
  obtain ⟨e, he⟩ := outcome_of_not_accepts h
  rw [after, he]

theorem accepted_of_accepts (h : l.Accepts p) :
    l.accepted (p :: docs) = p :: (l.after p).accepted docs := by
  rw [accepted, after, outcome_of_accepts h]

theorem accepted_of_not_accepts (h : ¬ l.Accepts p) :
    l.accepted (p :: docs) = (l.after p).accepted docs := by
  obtain ⟨e, he⟩ := outcome_of_not_accepts h
  rw [accepted, after, he]

/-- No module is queued twice. -/
theorem after_nodup (h : (l.pending.map (·.1)).Nodup) (p : String × ModuleDocument) :
    ((l.after p).pending.map (·.1)).Nodup := by
  by_cases hp : l.Accepts p
  · rw [after_of_accepts hp, pending_push, List.map_append, List.nodup_append]
    refine ⟨h, List.nodup_singleton _, fun a ha b hb hab => ?_⟩
    rw [hab, List.mem_singleton.1 hb] at ha
    exact hp.1 ha
  · rwa [after_of_not_accepts hp]

/-! ## All documents -/

theorem pending_addEach (l : Loader) (docs : List (String × ModuleDocument)) :
    (l.addEach docs).pending = l.pending ++ (l.accepted docs).map queued := by
  induction docs generalizing l with
  | nil => simp [addEach, accepted]
  | cons p docs ih =>
    change ((l.after p).addEach docs).pending = _
    rw [ih]
    by_cases hp : l.Accepts p
    · rw [accepted_of_accepts hp, after_of_accepts hp]
      simp
    · rw [accepted_of_not_accepts hp, after_of_not_accepts hp]

theorem skipped_addEach (l : Loader) (docs : List (String × ModuleDocument)) :
    (l.addEach docs).skipped = l.skipped := by
  induction docs generalizing l with
  | nil => rfl
  | cons p docs ih =>
    change ((l.after p).addEach docs).skipped = _
    rw [ih]
    by_cases hp : l.Accepts p
    · rw [after_of_accepts hp, skipped_push]
    · rw [after_of_not_accepts hp]

theorem addEach_nodup (h : (l.pending.map (·.1)).Nodup) (docs : List (String × ModuleDocument)) :
    ((l.addEach docs).pending.map (·.1)).Nodup := by
  induction docs generalizing l with
  | nil => exact h
  | cons p docs ih => exact ih (after_nodup h p)

theorem typesFault_of_mem_accepted (h : p ∈ l.accepted docs) : typesFault [] p.2.types = none := by
  induction docs generalizing l with
  | nil => simp [accepted] at h
  | cons q docs ih =>
    by_cases hq : l.Accepts q
    · rw [accepted_of_accepts hq] at h
      rcases List.mem_cons.1 h with rfl | h
      · exact hq.2
      · exact ih h
    · rw [accepted_of_not_accepts hq] at h
      exact ih h

theorem accepted_eq_self (hmodules : (l.pending.map (·.1) ++ docs.map moduleOf).Nodup)
    (htypes : ∀ p ∈ docs, typesFault [] p.2.types = none) : l.accepted docs = docs := by
  induction docs generalizing l with
  | nil => rfl
  | cons p docs ih =>
    have hp : l.Accepts p :=
      ⟨fun hmem => (List.nodup_append.1 hmodules).2.2 _ hmem _ (.head _) rfl, htypes p (.head _)⟩
    rw [accepted_of_accepts hp, ih _ fun q hq => htypes q (.tail _ hq)]
    rw [after_of_accepts hp]
    simpa [queued] using hmodules

/-! ## Without documents before -/

theorem pending_addEach_empty (docs : List (String × ModuleDocument)) :
    (addEach .empty docs).pending = (accepted .empty docs).map queued :=
  pending_addEach .empty docs

theorem addEach_empty_nodup (docs : List (String × ModuleDocument)) :
    ((addEach .empty docs).pending.map (·.1)).Nodup :=
  addEach_nodup (l := .empty) List.nodup_nil docs

theorem accepted_modules_nodup (docs : List (String × ModuleDocument)) :
    ((accepted .empty docs).map moduleOf).Nodup := by
  have hnodup := addEach_empty_nodup docs
  rw [pending_addEach_empty, List.map_map] at hnodup
  exact hnodup

theorem accepted_empty_eq_self_iff : accepted .empty docs = docs ↔
    (docs.map moduleOf).Nodup ∧ ∀ p ∈ docs, typesFault [] p.2.types = none := by
  constructor
  · intro h
    rw [← h]
    exact ⟨accepted_modules_nodup docs, fun p => typesFault_of_mem_accepted⟩
  · rintro ⟨hmodules, htypes⟩
    exact accepted_eq_self (by simpa [empty, ofPending] using hmodules) htypes

/-- The documents that are accepted are all accepted in any other order as well. -/
theorem accepted_of_perm {docs' : List (String × ModuleDocument)}
    (h : docs'.Perm (accepted .empty docs)) : accepted .empty docs' = docs' := by
  refine accepted_empty_eq_self_iff.2 ⟨?_, fun p hp => typesFault_of_mem_accepted (h.mem_iff.1 hp)⟩
  exact (h.map _).nodup_iff.2 (accepted_modules_nodup docs)

end ApiClient.Loader
