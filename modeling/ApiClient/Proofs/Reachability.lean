import ApiClient.Collections.Reach
import Mathlib.Data.List.Perm.Subperm
import Mathlib.Data.Set.Basic

/-!
# `reach` finds the least closed set

`reach` takes one element off its stack in each step and stops when the number of steps is used up.
On a finite universe that no successor leaves, as many steps as there are elements are enough: every
element is put on the stack once.

Results:
* `Walk.step`: the invariant of the steps.
* `reach_closed`: with enough steps the result contains the successors of its elements.
* `mem_of_mem_reach`: a closed set that contains the start contains the result, however many steps
  there are.
* `mem_reach_iff`: the result is the least closed set, whatever the order of the stack.
-/

namespace ApiClient

/-- The set contains the successors of its elements. -/
def ClosedUnder {α : Type} (next : α → List α) (s : Set α) : Prop :=
  ∀ a ∈ s, ∀ b ∈ next a, b ∈ s

variable {α : Type} [DecidableEq α] {next : α → List α}

/-! ## One step -/

/-- The state of a walk through a universe: what is on the stack is visited, whatever else is
visited has its successors visited, and there are steps left for the stack and for all elements that
are not visited yet. -/
structure Walk (next : α → List α) (all : List α) (steps : ℕ) (visited stack : List α) : Prop where
  visited_subset : visited ⊆ all
  nodup : visited.Nodup
  stack_subset : stack ⊆ visited
  done : ∀ a ∈ visited, a ∉ stack → ∀ b ∈ next a, b ∈ visited
  enough : stack.length + all.length ≤ steps + visited.length

theorem Walk.step {all visited stack : List α} {steps : ℕ} {a : α}
    (hu : ∀ a ∈ all, ∀ b ∈ next a, b ∈ all) (h : Walk next all (steps + 1) visited (a :: stack)) :
    Walk next all steps (visited ++ newSuccessors next visited a)
      ((newSuccessors next visited a).reverse ++ stack) where
  visited_subset := by
    have ha : a ∈ all := h.visited_subset (h.stack_subset (.head _))
    exact List.append_subset.2 ⟨h.visited_subset, fun b hb => hu a ha b (mem_newSuccessors.1 hb).1⟩
  nodup := append_newSuccessors_nodup a h.nodup
  stack_subset := by
    intro b hb
    rcases List.mem_append.1 hb with hb | hb
    · exact List.mem_append_right _ (List.mem_reverse.1 hb)
    · exact List.mem_append_left _ (h.stack_subset (.tail _ hb))
  done := by
    intro b hb hnot c hc
    rw [List.mem_append, List.mem_reverse, not_or] at hnot
    have hvisited : b ∈ visited := (List.mem_append.1 hb).resolve_right hnot.1
    by_cases hcv : c ∈ visited
    · exact List.mem_append_left _ hcv
    · by_cases hba : b = a
      · subst hba
        exact List.mem_append_right _ (mem_newSuccessors.2 ⟨hc, hcv⟩)
      · have hoff : b ∉ a :: stack := fun hmem => (List.mem_cons.1 hmem).elim hba hnot.2
        exact absurd (h.done b hvisited hoff c hc) hcv
  enough := by
    have henough := h.enough
    simp only [List.length_cons, List.length_append, List.length_reverse] at henough ⊢
    omega

omit [DecidableEq α] in
/-- Without steps left the stack is empty. -/
theorem Walk.stack_eq_nil {all visited stack : List α} (h : Walk next all 0 visited stack) :
    stack = [] := by
  have hlength := (List.subperm_of_subset h.nodup h.visited_subset).length_le
  have henough := h.enough
  exact List.length_eq_zero_iff.1 (by omega)

/-! ## The result -/

/-- The walk ends with an empty stack, so that the successors of all that is visited are. -/
theorem reach_closed {all : List α} (hu : ∀ a ∈ all, ∀ b ∈ next a, b ∈ all)
    {steps : ℕ} {visited stack : List α} (h : Walk next all steps visited stack) :
    ClosedUnder next {a | a ∈ reach next steps visited stack} := by
  have hdone : ∀ {steps : ℕ} {visited : List α}, Walk next all steps visited [] →
      ClosedUnder next {a | a ∈ visited} := fun h a ha => h.done a ha List.not_mem_nil
  induction steps generalizing visited stack with
  | zero =>
    obtain rfl := h.stack_eq_nil
    exact hdone h
  | succ steps ih =>
    cases stack with
    | nil => exact hdone h
    | cons a stack => exact ih (h.step hu)

theorem mem_of_mem_reach {s : Set α} (hs : ClosedUnder next s) {steps : ℕ}
    {visited stack : List α} (hv : ∀ a ∈ visited, a ∈ s) (hstack : ∀ a ∈ stack, a ∈ s) {a : α}
    (ha : a ∈ reach next steps visited stack) : a ∈ s := by
  induction steps generalizing visited stack with
  | zero => exact hv a ha
  | succ steps ih =>
    cases stack with
    | nil => exact hv a ha
    | cons b stack =>
      have hnew : ∀ c ∈ newSuccessors next visited b, c ∈ s := fun c hc =>
        hs b (hstack b (.head _)) c (mem_newSuccessors.1 hc).1
      refine ih (fun c hc => ?_) (fun c hc => ?_) ha
      · exact (List.mem_append.1 hc).elim (hv c) (hnew c)
      · exact (List.mem_append.1 hc).elim (fun hc => hnew c (List.mem_reverse.1 hc))
          fun hc => hstack c (.tail _ hc)

omit [DecidableEq α] in
/-- A walk that starts with all that is visited on its stack, in any order. -/
theorem Walk.start {all visited stack : List α} (hv : visited ⊆ all) (hn : visited.Nodup)
    (h : stack.Perm visited) : Walk next all all.length visited stack where
  visited_subset := hv
  nodup := hn
  stack_subset := h.subset
  done := fun _ ha hnot => absurd (h.mem_iff.2 ha) hnot
  enough := by rw [h.length_eq, Nat.add_comm]

/-- What is reached from a start is the least closed set that contains it. -/
theorem mem_reach_iff {all : List α} (hu : ∀ a ∈ all, ∀ b ∈ next a, b ∈ all)
    {visited stack : List α} (hv : visited ⊆ all) (hn : visited.Nodup) (h : stack.Perm visited)
    {a : α} : a ∈ reach next all.length visited stack ↔
      ∀ s : Set α, ClosedUnder next s → (∀ b ∈ visited, b ∈ s) → a ∈ s := by
  constructor
  · intro ha s hs hstart
    exact mem_of_mem_reach hs hstart (fun b hb => hstart b (h.mem_iff.1 hb)) ha
  · exact fun hleast => hleast _ (reach_closed hu (.start hv hn h)) fun b hb => mem_reach_of_mem hb

end ApiClient
