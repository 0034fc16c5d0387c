import ApiClient.Disk

/-!
# Steps that succeed and steps that fail

`Disk.Succeeds` tells with which result a step succeeds and which disk it leaves. A sequence of
steps succeeds exactly if each of them does, on the disk that the one before it left.

`Disk.Fails` tells with which fault a step fails and which disk it leaves. A sequence of steps fails
exactly if one of them does after all before it succeeded.
-/

namespace ApiClient.Disk

variable {ε φ α β : Type} {d d' d'' : Disk}

/-- The step succeeds on the first disk with a result, and leaves the second disk. -/
def Succeeds (a : Action ε α) (d : Disk) (x : α) (d' : Disk) : Prop :=
  a.run.run d = (.ok x, d')

@[simp] theorem succeeds_pure {x y : α} :
    Succeeds (pure x : Action ε α) d y d' ↔ x = y ∧ d = d' := by
  change ((.ok x, d) : Except ε α × Disk) = (.ok y, d') ↔ _
  simp

@[simp] theorem succeeds_throw {e : ε} {x : α} : ¬ Succeeds (throw e : Action ε α) d x d' := by
  intro h
  change ((.error e, d) : Except ε α × Disk) = (.ok x, d') at h
  simp at h

@[simp] theorem succeeds_get {x : Disk} :
    Succeeds (get : Action ε Disk) d x d' ↔ d = x ∧ d = d' := by
  change ((.ok d, d) : Except ε Disk × Disk) = (.ok x, d') ↔ _
  simp

@[simp] theorem succeeds_set {u : Unit} :
    Succeeds (set d'' : Action ε Unit) d u d' ↔ d'' = d' := by
  change ((.ok (), d'') : Except ε Unit × Disk) = (.ok u, d') ↔ _
  simp

@[simp] theorem succeeds_bind {a : Action ε α} {f : α → Action ε β} {y : β} :
    Succeeds (a >>= f) d y d'' ↔ ∃ x d', Succeeds a d x d' ∧ Succeeds (f x) d' y d'' := by
  unfold Succeeds
  rw [ExceptT.run_bind, StateT.run_bind]
  generalize a.run.run d = result
  obtain ⟨_ | x, d₁⟩ := result
  · constructor
    · intro h
      cases (Prod.mk.inj h).1
    · rintro ⟨_, _, he, _⟩
      cases (Prod.mk.inj he).1
  · constructor
    · intro h
      exact ⟨x, d₁, rfl, h⟩
    · rintro ⟨_, _, he, h⟩
      obtain ⟨hx, rfl⟩ := Prod.mk.inj he
      obtain rfl := Except.ok.inj hx
      exact h

@[simp] theorem succeeds_settle {fault : φ → ε} {r : Except φ α} {x : α} :
    Succeeds (settle fault r) d x d' ↔ r = .ok x ∧ d = d' := by
  cases r <;> simp [settle]

@[simp] theorem succeeds_ask {fault : φ → ε} {answer : Disk → Except φ α} {x : α} :
    Succeeds (ask fault answer) d x d' ↔ answer d = .ok x ∧ d = d' := by
  simp only [ask, succeeds_bind, succeeds_get, succeeds_settle]
  constructor
  · rintro ⟨_, _, ⟨rfl, rfl⟩, h⟩
    exact h
  · intro h
    exact ⟨d, d, ⟨rfl, rfl⟩, h⟩

@[simp] theorem succeeds_attempt {fault : φ → ε} {change : Disk → Except φ Disk} {u : Unit} :
    Succeeds (attempt fault change) d u d' ↔ change d = .ok d' := by
  simp only [attempt, succeeds_bind, succeeds_ask, succeeds_set]
  constructor
  · rintro ⟨_, _, ⟨h, rfl⟩, rfl⟩
    exact h
  · intro h
    exact ⟨d', d, ⟨h, rfl⟩, rfl⟩

@[simp] theorem succeeds_adapt {a : Action φ α} {fault : φ → ε} {x : α} :
    Succeeds (a.adapt fault : Action ε α) d x d' ↔ Succeeds a d x d' := by
  unfold Succeeds
  rw [ExceptT.run_adapt, StateT.run_map]
  change (Except.mapError fault (a.run.run d).1, (a.run.run d).2) = _ ↔ _
  obtain ⟨r, d₁⟩ := a.run.run d
  cases r with
  | ok y =>
    constructor <;> intro h <;> obtain ⟨hx, rfl⟩ := Prod.mk.inj h
    · obtain rfl := Except.ok.inj hx
      rfl
    · obtain rfl := Except.ok.inj hx
      rfl
  | error e => constructor <;> intro h <;> cases (Prod.mk.inj h).1

/-! ## Failure -/

/-- The step fails on the first disk with a fault, and leaves the second disk. -/
def Fails (a : Action ε α) (d : Disk) (e : ε) (d' : Disk) : Prop :=
  a.run.run d = (.error e, d')

variable {e : ε}

theorem Succeeds.not_fails {a : Action ε α} {x : α} (h : Succeeds a d x d') :
    ¬ Fails a d e d'' := by
  intro hfails
  cases (Prod.mk.inj (h.symm.trans hfails)).1

@[simp] theorem not_fails_pure {x : α} : ¬ Fails (pure x : Action ε α) d e d' :=
  (succeeds_pure.2 ⟨rfl, rfl⟩).not_fails

@[simp] theorem fails_throw {e' : ε} :
    Fails (throw e' : Action ε α) d e d' ↔ e' = e ∧ d = d' := by
  change ((.error e', d) : Except ε α × Disk) = (.error e, d') ↔ _
  simp

@[simp] theorem fails_bind {a : Action ε α} {f : α → Action ε β} :
    Fails (a >>= f) d e d'' ↔
      Fails a d e d'' ∨ ∃ x d', Succeeds a d x d' ∧ Fails (f x) d' e d'' := by
  unfold Fails Succeeds
  rw [ExceptT.run_bind, StateT.run_bind]
  generalize a.run.run d = result
  obtain ⟨e' | x, d₁⟩ := result
  · constructor
    · intro h
      obtain ⟨he, rfl⟩ := Prod.mk.inj h
      obtain rfl := Except.error.inj he
      exact .inl rfl
    · rintro (h | ⟨_, _, hx, _⟩)
      · obtain ⟨he, rfl⟩ := Prod.mk.inj h
        obtain rfl := Except.error.inj he
        rfl
      · cases (Prod.mk.inj hx).1
  · constructor
    · intro h
      exact .inr ⟨x, d₁, rfl, h⟩
    · rintro (h | ⟨_, _, hsuccess, h⟩)
      · cases (Prod.mk.inj h).1
      · obtain ⟨hx, rfl⟩ := Prod.mk.inj hsuccess
        obtain rfl := Except.ok.inj hx
        exact h

@[simp] theorem fails_settle {fault : φ → ε} {r : Except φ α} :
    Fails (settle fault r) d e d' ↔ (∃ g, r = .error g ∧ fault g = e) ∧ d = d' := by
  cases r <;> simp [settle]

@[simp] theorem fails_ask {fault : φ → ε} {answer : Disk → Except φ α} :
    Fails (ask fault answer) d e d' ↔ (∃ g, answer d = .error g ∧ fault g = e) ∧ d = d' := by
  have hget : ∀ d', ¬ Fails (get : Action ε Disk) d e d' := fun _ =>
    (succeeds_get.2 ⟨rfl, rfl⟩).not_fails
  simp only [ask, fails_bind, hget, false_or, succeeds_get, fails_settle]
  constructor
  · rintro ⟨_, _, ⟨rfl, rfl⟩, h⟩
    exact h
  · intro h
    exact ⟨d, d, ⟨rfl, rfl⟩, h⟩

@[simp] theorem fails_attempt {fault : φ → ε} {change : Disk → Except φ Disk} :
    Fails (attempt fault change) d e d' ↔ (∃ g, change d = .error g ∧ fault g = e) ∧ d = d' := by
  have hset : ∀ x d : Disk, ¬ Fails (set x : Action ε Unit) d e d' := by
    intro x d
    have hsuccess : Succeeds (set x : Action ε Unit) d () x := succeeds_set.2 rfl
    exact hsuccess.not_fails
  simp only [attempt, fails_bind, fails_ask, hset, and_false, exists_false, or_false]

end ApiClient.Disk
