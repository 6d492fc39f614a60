import Bulletin.Log

/-! # Runs that succeed

A computation that may fail, by itself or run on a state. A sequence succeeds exactly if its parts
do, the second on the state that the first leaves (`bind_eq_ok`); so a proof about a run goes from
part to part and never looks at how failures are passed on. -/

namespace Bulletin.Proofs.Runs

/-! ### Results -/

section Results
variable {ε ε' α β : Type} {x : Except ε α}

@[simp] theorem except_ok_bind (a : α) (f : α → Except ε β) : (.ok a >>= f) = f a := rfl

@[simp] theorem except_pure (a : α) : (pure a : Except ε α) = .ok a := rfl

theorem except_bind_eq_ok {f : α → Except ε β} {b : β} :
    (x >>= f) = .ok b ↔ ∃ a, x = .ok a ∧ f a = .ok b := by
  cases x with
  | error e => exact ⟨nofun, nofun⟩
  | ok a => exact ⟨fun h => ⟨a, rfl, h⟩, fun ⟨_, rfl, h⟩ => h⟩

theorem except_map_eq_ok {f : α → β} {b : β} : x.map f = .ok b ↔ ∃ a, x = .ok a ∧ f a = b := by
  cases x with
  | error e => exact ⟨nofun, nofun⟩
  | ok a => exact ⟨fun h => ⟨a, rfl, Except.ok.inj h⟩, fun ⟨_, rfl, h⟩ => congrArg _ h⟩

theorem exists_ok_iff : (∃ a, x = .ok a) ↔ ¬ ∃ e, x = .error e := by
  cases x with
  | error e => exact iff_of_false nofun fun h => h ⟨e, rfl⟩
  | ok a => exact iff_of_true ⟨a, rfl⟩ nofun

theorem except_mapError_eq_ok {f : ε → ε'} {a : α} : x.mapError f = .ok a ↔ x = .ok a := by
  cases x with
  | error e => exact ⟨nofun, nofun⟩
  | ok b => exact ⟨fun h => congrArg _ (Except.ok.inj h), fun h => congrArg _ (Except.ok.inj h)⟩

end Results

/-! ### Runs on a state -/

section Runs
variable {ε σ α β : Type} {x : ExceptT ε (StateM σ) α} {f : α → ExceptT ε (StateM σ) β} {s s' : σ}

theorem bind_ok {a : α} (h : x s = (.ok a, s')) : (x >>= f) s = f a s' := by
  show (ExceptT.bind x f : ExceptT ε (StateM σ) β) s = _
  simp only [ExceptT.bind, ExceptT.mk, bind, StateT.bind]
  rw [h]
  rfl

theorem liftM_eq (x : StateM σ α) (s : σ) :
    (liftM x : ExceptT ε (StateM σ) α) s = (.ok (x s).1, (x s).2) := rfl

theorem get_bind {f : σ → ExceptT ε (StateM σ) β} : (get >>= f) s = f s s := bind_ok rfl

theorem bind_error {e : ε} (h : x s = (.error e, s')) : (x >>= f) s = (.error e, s') := by
  show (ExceptT.bind x f : ExceptT ε (StateM σ) β) s = _
  simp only [ExceptT.bind, ExceptT.mk, bind, StateT.bind]
  rw [h]
  rfl

/-- **A sequence succeeds exactly if both its parts do.** -/
theorem bind_eq_ok {b : β} : (x >>= f) s = (.ok b, s') ↔
    ∃ a t, x s = (.ok a, t) ∧ f a t = (.ok b, s') := by
  constructor
  · intro h
    rcases hx : x s with ⟨e | a, t⟩
    · rw [bind_error hx] at h; cases h
    · exact ⟨a, t, rfl, by rwa [bind_ok hx] at h⟩
  · rintro ⟨a, t, hx, hf⟩
    rwa [bind_ok hx]

theorem bind_eq_error {e : ε} : (x >>= f) s = (.error e, s') ↔
    x s = (.error e, s') ∨ ∃ a t, x s = (.ok a, t) ∧ f a t = (.error e, s') := by
  rcases hx : x s with ⟨e' | a, t⟩
  · rw [bind_error hx]
    constructor
    · rintro ⟨⟩
      exact .inl rfl
    · rintro (⟨⟨⟩⟩ | ⟨_, _, ⟨⟩, -⟩)
      rfl
  · rw [bind_ok hx]
    refine ⟨fun h => .inr ⟨a, t, rfl, h⟩, ?_⟩
    rintro (h | ⟨_, _, h, hf⟩)
    · cases h
    · cases h
      exact hf

theorem pure_eq_ok {a b : α} :
    (pure a : ExceptT ε (StateM σ) α) s = (.ok b, s') ↔ a = b ∧ s = s' := by
  constructor
  · rintro ⟨⟩; exact ⟨rfl, rfl⟩
  · rintro ⟨rfl, rfl⟩; rfl

end Runs

section Records
variable {ε ε' α β : Type} {log log' : List Record} {a : α} {e : ε}

theorem lift_eq_ok {x : Except ε α} :
    Logged.lift x log = (.ok a, log') ↔ x = .ok a ∧ log = log' := by
  constructor
  · rintro ⟨⟩; exact ⟨rfl, rfl⟩
  · rintro ⟨rfl, rfl⟩; rfl

theorem lift_bind_eq_ok {x : Except ε α} {f : α → Logged ε β} {b : β} :
    (Logged.lift x >>= f) log = (.ok b, log') ↔ ∃ a, x = .ok a ∧ f a log = (.ok b, log') := by
  constructor
  · intro h
    obtain ⟨a, t, hx, hf⟩ := bind_eq_ok.1 h
    obtain ⟨rfl, rfl⟩ := lift_eq_ok.1 hx
    exact ⟨a, rfl, hf⟩
  · rintro ⟨a, rfl, hf⟩
    exact (bind_ok rfl).trans hf

theorem error_of_lift {x : Except ε α} (h : Logged.lift x log = (.error e, log')) : x = .error e :=
  (Prod.ext_iff.1 h).1

theorem mapError_eq_ok {f : ε → ε'} {x : Logged ε α} :
    Logged.mapError f x log = (.ok a, log') ↔ x log = (.ok a, log') := by
  have h : Logged.mapError f x log = ((x log).1.mapError f, (x log).2) := rfl
  rw [h]
  rcases x log with ⟨e | b, t⟩
  · constructor <;> rintro ⟨⟩
  · constructor <;> rintro ⟨⟩ <;> rfl

theorem error_of_mapError {f : ε → ε'} {x : Logged ε α} {e' : ε'}
    (h : Logged.mapError f x log = (.error e', log')) : ∃ e, x log = (.error e, log') ∧ e' = f e := by
  have hx : Logged.mapError f x log = ((x log).1.mapError f, (x log).2) := rfl
  rw [hx] at h
  rcases hr : x log with ⟨e | b, t⟩
  · rw [hr] at h
    cases h
    exact ⟨e, rfl, rfl⟩
  · rw [hr] at h
    cases h

end Records

end Bulletin.Proofs.Runs
