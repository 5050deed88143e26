import Mathlib.Data.List.Forall2

/-! Runs that a failure can end. A fold hands its state from step to step, and
a list of attempts succeeds as a whole exactly when each of them does. -/
namespace SequenceDiagram.Attempt

variable {ε σ α β : Type}

theorem bind_eq_ok {x : Except ε α} {f : α → Except ε β} {b : β} :
    (x >>= f) = .ok b ↔ ∃ a, x = .ok a ∧ f a = .ok b := by
  cases x <;> simp [bind, Except.bind]

theorem bind_eq_error {x : Except ε α} {f : α → Except ε β} {e : ε} :
    (x >>= f) = .error e ↔ x = .error e ∨ ∃ a, x = .ok a ∧ f a = .error e := by
  cases x <;> simp [bind, Except.bind]

theorem ok_bind (a : α) (f : α → Except ε β) : (Except.ok a >>= f) = f a := rfl

theorem toOption_eq_some {x : Except ε α} {a : α} : x.toOption = some a ↔ x = .ok a := by
  cases x <;> simp [Except.toOption]

theorem map_eq_ok {x : Except ε α} {f : α → β} {b : β} :
    x.map f = .ok b ↔ ∃ a, x = .ok a ∧ f a = b := by
  cases x <;> simp [Except.map]

theorem mapError_eq_ok {δ : Type} {x : Except ε α} {f : ε → δ} {a : α} :
    x.mapError f = .ok a ↔ x = .ok a := by
  cases x <;> simp [Except.mapError]

/-- What every step keeps, a run that succeeds keeps. -/
theorem fold_preserves {step : σ → α → Except ε σ} {P : σ → Prop}
    (keeps : ∀ s a t, P s → step s a = .ok t → P t) {as : List α} {s t : σ} (start : P s)
    (ran : as.foldlM step s = .ok t) : P t := by
  induction as generalizing s with
  | nil =>
    cases ran
    exact start
  | cons a rest ih =>
    rw [List.foldlM_cons] at ran
    obtain ⟨middle, first, others⟩ := bind_eq_ok.mp ran
    exact ih (keeps s a middle start first) others

/-- A run that succeeds comes by a state from where the rest of it succeeds. -/
theorem fold_split {step : σ → α → Except ε σ} {as : List α} {s t : σ} (count : Nat) (ran : as.foldlM step s = .ok t) :
    ∃ middle, (as.take count).foldlM step s = .ok middle ∧ (as.drop count).foldlM step middle = .ok t := by
  rw [← List.take_append_drop count as, List.foldlM_append] at ran
  exact bind_eq_ok.mp ran

/-- A run fails as the first step does that fails in the state that those before it
have led to. -/
theorem fold_eq_error_iff {step : σ → α → Except ε σ} {as : List α} {s : σ} {e : ε} :
    as.foldlM step s = .error e ↔ ∃ index a middle, as[index]? = some a ∧
      (as.take index).foldlM step s = .ok middle ∧ step middle a = .error e := by
  induction as generalizing s with
  | nil =>
    constructor
    · intro ran
      cases ran
    · rintro ⟨_, _, _, found, _⟩
      cases found
  | cons a rest ih =>
    rw [List.foldlM_cons, bind_eq_error]
    constructor
    · rintro (failed | ⟨next, first, ran⟩)
      · exact ⟨0, a, s, rfl, rfl, failed⟩
      · obtain ⟨index, culprit, middle, found, front, failed⟩ := ih.mp ran
        refine ⟨index + 1, culprit, middle, found, ?_, failed⟩
        rw [List.take_succ_cons, List.foldlM_cons, first]
        exact front
    · rintro ⟨index, culprit, middle, found, front, failed⟩
      cases index with
      | zero =>
        cases found
        cases front
        exact .inl failed
      | succ index =>
        rw [List.take_succ_cons, List.foldlM_cons] at front
        obtain ⟨next, first, front⟩ := bind_eq_ok.mp front
        exact .inr ⟨next, first, ih.mpr ⟨index, culprit, middle, found, front, failed⟩⟩

/-- A list of attempts succeeds with the answers of the single ones. -/
theorem mapM_eq_ok_iff {f : α → Except ε β} {as : List α} {bs : List β} :
    as.mapM f = .ok bs ↔ List.Forall₂ (fun a b => f a = .ok b) as bs := by
  induction as generalizing bs with
  | nil =>
    rw [List.forall₂_nil_left_iff, List.mapM_nil]
    exact ⟨fun ran => (Except.ok.inj ran).symm, fun empty => empty ▸ rfl⟩
  | cons a rest ih =>
    rw [List.mapM_cons, bind_eq_ok, List.forall₂_cons_left_iff]
    refine exists_congr fun b => ?_
    simp only [bind_eq_ok, ih]
    constructor
    · rintro ⟨first, others, rest, same⟩
      cases same
      exact ⟨others, first, rest, rfl⟩
    · rintro ⟨others, first, rest, rfl⟩
      exact ⟨first, others, rest, rfl⟩

theorem mapM_succeeds {f : α → Except ε β} {as : List α} (each : ∀ a ∈ as, ∃ b, f a = .ok b) :
    ∃ bs, as.mapM f = .ok bs := by
  induction as with
  | nil => exact ⟨[], rfl⟩
  | cons a rest ih =>
    obtain ⟨b, first⟩ := each a List.mem_cons_self
    obtain ⟨bs, others⟩ := ih fun a member => each a (List.mem_cons_of_mem _ member)
    exact ⟨b :: bs, mapM_eq_ok_iff.mpr (.cons first (mapM_eq_ok_iff.mp others))⟩

/-- A list of attempts fails as the first of them does that fails. -/
theorem mapM_eq_error_iff {f : α → Except ε β} {as : List α} {e : ε} :
    as.mapM f = .error e ↔ ∃ index a, as[index]? = some a ∧ f a = .error e ∧
      ∀ earlier ∈ as.take index, ∃ b, f earlier = .ok b := by
  induction as with
  | nil =>
    constructor
    · intro ran
      cases ran
    · rintro ⟨_, _, found, _⟩
      cases found
  | cons a rest ih =>
    rw [List.mapM_cons, bind_eq_error]
    constructor
    · rintro (failed | ⟨b, first, ran⟩)
      · exact ⟨0, a, rfl, failed, fun _ member => nomatch member⟩
      · rcases bind_eq_error.mp ran with failed | ⟨_, _, never⟩
        · obtain ⟨index, culprit, found, failed, others⟩ := ih.mp failed
          exact ⟨index + 1, culprit, found, failed, List.forall_mem_cons.mpr ⟨⟨b, first⟩, others⟩⟩
        · cases never
    · rintro ⟨index, culprit, found, failed, others⟩
      cases index with
      | zero =>
        cases found
        exact .inl failed
      | succ index =>
        obtain ⟨⟨b, first⟩, others⟩ := List.forall_mem_cons.mp others
        exact .inr ⟨b, first, bind_eq_error.mpr (.inl (ih.mpr ⟨index, culprit, found, failed, others⟩))⟩

/-- Attempts that fail with other errors fail as a whole with another error. -/
theorem mapM_mapError {δ : Type} {f : α → Except ε β} {g : α → Except δ β} {other : ε → δ} {as : List α}
    (alike : ∀ a ∈ as, g a = (f a).mapError other) : as.mapM g = (as.mapM f).mapError other := by
  induction as with
  | nil => rfl
  | cons a rest ih =>
    obtain ⟨first, others⟩ := List.forall_mem_cons.mp alike
    rw [List.mapM_cons, List.mapM_cons, first, ih others]
    cases f a with
    | error e => rfl
    | ok b => cases rest.mapM f <;> rfl

/-- What each attempt of a list can do, related attempts of another list can follow. -/
theorem mapM_follows {γ δ : Type} {f : α → Except ε β} {g : γ → Except ε δ} {R : α → γ → Prop} {S : β → δ → Prop}
    (follows : ∀ a c b, R a c → f a = .ok b → ∃ d, g c = .ok d ∧ S b d) {as : List α} {cs : List γ} {bs : List β}
    (related : List.Forall₂ R as cs) (done : as.mapM f = .ok bs) :
    ∃ ds, cs.mapM g = .ok ds ∧ List.Forall₂ S bs ds := by
  induction related generalizing bs with
  | nil =>
    cases done
    exact ⟨[], rfl, .nil⟩
  | @cons a c as cs first _ ih =>
    obtain ⟨b, bs, doneFirst, doneOthers, rfl⟩ := List.forall₂_cons_left_iff.mp (mapM_eq_ok_iff.mp done)
    obtain ⟨d, ran, same⟩ := follows a c b first doneFirst
    obtain ⟨ds, ranOthers, sameOthers⟩ := ih (mapM_eq_ok_iff.mpr doneOthers)
    exact ⟨d :: ds, mapM_eq_ok_iff.mpr (.cons ran (mapM_eq_ok_iff.mp ranOthers)), .cons same sameOthers⟩

end SequenceDiagram.Attempt
