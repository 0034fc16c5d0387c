import ApiClient.Collections.Distinct

/-!
# Reachable elements

`reach` lists what can be reached from a list of elements by a successor function. It goes through a
stack: the element on top is taken off, and those of its successors that were not visited yet are
visited and put on the stack, until the stack is empty or the number of steps is used up.
`reach_nodup` says that it lists nothing twice, `mem_reach_of_mem` that it keeps what was visited.
-/

namespace ApiClient

variable {α : Type} [DecidableEq α]

/-- The successors of an element that are not visited yet, each once. -/
def newSuccessors (next : α → List α) (visited : List α) (a : α) : List α :=
  distinctBy id visited (next a)

/-- What is visited, with what can be reached from a stack as far as the number of steps allows. -/
def reach (next : α → List α) : Nat → List α → List α → List α
  | 0, visited, _ => visited
  | _ + 1, visited, [] => visited
  | steps + 1, visited, a :: stack =>
    let new := newSuccessors next visited a
    reach next steps (visited ++ new) (new.reverse ++ stack)

theorem mem_newSuccessors {next : α → List α} {visited : List α} {a b : α} :
    b ∈ newSuccessors next visited a ↔ b ∈ next a ∧ b ∉ visited :=
  mem_distinctBy_id

theorem append_newSuccessors_nodup {next : α → List α} {visited : List α} (a : α)
    (h : visited.Nodup) : (visited ++ newSuccessors next visited a).Nodup := by
  have hnew : (newSuccessors next visited a).Nodup := by
    simpa [newSuccessors] using map_distinctBy_nodup id visited (next a)
  refine List.nodup_append.2 ⟨h, hnew, ?_⟩
  rintro b hb c hc rfl
  exact (mem_newSuccessors.1 hc).2 hb

theorem mem_reach_of_mem {next : α → List α} {steps : Nat} {visited stack : List α} {a : α}
    (h : a ∈ visited) : a ∈ reach next steps visited stack := by
  induction steps generalizing visited stack with
  | zero => exact h
  | succ steps ih =>
    cases stack with
    | nil => exact h
    | cons b stack => exact ih (List.mem_append_left _ h)

theorem reach_nodup {next : α → List α} {steps : Nat} {visited stack : List α}
    (h : visited.Nodup) : (reach next steps visited stack).Nodup := by
  induction steps generalizing visited stack with
  | zero => exact h
  | succ steps ih =>
    cases stack with
    | nil => exact h
    | cons b stack => exact ih (append_newSuccessors_nodup b h)

end ApiClient
