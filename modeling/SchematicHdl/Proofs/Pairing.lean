import SchematicHdl.Proofs.Keeping

/-! Two runs side by side. Steps that start in related states come to related results or fail for
related causes, and leave related states in either case.
-/

namespace SchematicHdl.Outcome

variable {ε σ α β γ δ : Type} {C : ε → ε → Prop}

/-- Both come to results, and these are related, or both fail, and for related causes. -/
inductive Paired (C : ε → ε → Prop) (A : α → β → Prop) : Except ε α → Except ε β → Prop
  | ok {a b} (here : A a b) : Paired C A (.ok a) (.ok b)
  | error {cause counterpart} (here : C cause counterpart)
    : Paired C A (.error cause) (.error counterpart)

theorem paired_refl (refl : ∀ cause, C cause cause) (x : Except ε α) : Paired C Eq x x := by
  cases x with
  | ok a => exact .ok rfl
  | error cause => exact .error (refl cause)

theorem paired_bind {A : α → β → Prop} {B : γ → δ → Prop} {x : Except ε α} {y : Except ε β}
    {f : α → Except ε γ} {g : β → Except ε δ} (first : Paired C A x y)
    (second : ∀ a b, A a b → Paired C B (f a) (g b))
    : Paired C B (x >>= f) (y >>= g) := by
  cases first with
  | ok here => exact second _ _ here
  | error here => exact .error here

-----------------------------------------------------------------------------------------
-- Steps that lose their state when they fail
-----------------------------------------------------------------------------------------

/-- From related states both come to the same result in related states, or fail for related causes.
-/
def Agree (C : ε → ε → Prop) (R : σ → σ → Prop) (step other : StateT σ (Except ε) α) : Prop :=
  ∀ s t, R s t → Paired C (fun a b => a.1 = b.1 ∧ R a.2 b.2) (step.run s) (other.run t)

variable {R : σ → σ → Prop}

/-- A step from the same state. -/
theorem agree_refl (refl : ∀ cause, C cause cause) (step : StateT σ (Except ε) α)
    : Agree C Eq step step := by
  rintro s _ rfl
  cases step.run s with
  | ok a => exact .ok ⟨rfl, rfl⟩
  | error cause => exact .error (refl cause)

theorem Agree.paired {step other : StateT σ (Except ε) α} (agree : Agree C Eq step other) (s : σ)
    : Paired C Eq (step.run s) (other.run s) := by
  have reached := agree s s rfl
  generalize step.run s = left, other.run s = right at reached
  cases reached with
  | ok here => exact .ok (Prod.ext here.1 here.2)
  | error here => exact .error here

theorem agree_pure (a : α) : Agree C R (pure a) (pure a) :=
  fun _ _ related => .ok ⟨rfl, related⟩

theorem agree_bind {step other : StateT σ (Except ε) α} {f g : α → StateT σ (Except ε) β}
    (first : Agree C R step other) (second : ∀ a, Agree C R (f a) (g a))
    : Agree C R (step >>= f) (other >>= g) := by
  intro s t related
  simp only [StateT.run_bind]
  refine paired_bind (first s t related) ?_
  rintro ⟨a, s'⟩ ⟨_, t'⟩ ⟨rfl, kept⟩
  exact second a s' t' kept

theorem agree_ofExcept {x y : Except ε α} (paired : Paired C Eq x y)
    : Agree C R (MonadExcept.ofExcept x : StateT σ (Except ε) α) (MonadExcept.ofExcept y) := by
  intro s t related
  cases paired with
  | ok same => exact .ok ⟨same, related⟩
  | error here => exact .error here

/-- Steps along a list agree with steps along a changed list if the single steps do, by induction on
the list.
-/
theorem agree_forM_map {f : α → StateT σ (Except ε) PUnit} {g : β → StateT σ (Except ε) PUnit}
    (change : α → β) {xs : List α} (each : ∀ x ∈ xs, Agree C R (f x) (g (change x)))
    : Agree C R (xs.forM f) ((xs.map change).forM g) := by
  induction xs with
  | nil => exact agree_pure _
  | cons x xs ih =>
      obtain ⟨head, tail⟩ := List.forall_mem_cons.mp each
      exact agree_bind head fun _ => ih tail

theorem agree_forM {f g : α → StateT σ (Except ε) PUnit} {xs : List α}
    (each : ∀ x ∈ xs, Agree C R (f x) (g x))
    : Agree C R (xs.forM f) (xs.forM g) := by
  simpa using agree_forM_map id each

-----------------------------------------------------------------------------------------
-- Steps that keep their state when they fail
-----------------------------------------------------------------------------------------

/-- From related states both come to related results, or fail for related causes, and they leave
related states behind.
-/
def Parallel (C : ε → ε → Prop) (R : σ → σ → Prop) (A : α → β → Prop)
    (step : ExceptT ε (StateM σ) α) (other : ExceptT ε (StateM σ) β)
    : Prop :=
  ∀ s t,
    R s t
    → Paired C A (step.run s).1 (other.run t).1 ∧ R (step.run s).2 (other.run t).2

theorem parallel_pure {A : α → β → Prop} {a : α} {b : β} (here : A a b)
    : Parallel C R A (pure a) (pure b) :=
  fun _ _ related => ⟨.ok here, related⟩

theorem parallel_throw {A : α → β → Prop} {cause counterpart : ε} (here : C cause counterpart)
    : Parallel C R A (throw cause) (throw counterpart) :=
  fun _ _ related => ⟨.error here, related⟩

theorem parallel_get : Parallel C R R (get : ExceptT ε (StateM σ) σ) get :=
  fun _ _ related => ⟨.ok related, related⟩

theorem parallel_modify {f g : σ → σ} (keeps : ∀ s t, R s t → R (f s) (g t))
    : Parallel C R Eq (modify f : ExceptT ε (StateM σ) PUnit) (modify g) :=
  fun s t related => ⟨.ok rfl, keeps s t related⟩

theorem parallel_set {s' t' : σ} (related : R s' t')
    : Parallel C R Eq (set s' : ExceptT ε (StateM σ) PUnit) (set t') :=
  fun _ _ _ => ⟨.ok rfl, related⟩

theorem parallel_ofExcept {A : α → β → Prop} {x : Except ε α} {y : Except ε β}
    (paired : Paired C A x y)
    : Parallel C R A (MonadExcept.ofExcept x) (MonadExcept.ofExcept y) := by
  cases paired with
  | ok here => exact parallel_pure here
  | error here => exact parallel_throw here

theorem parallel_lift {A : α → β → Prop} {step : ExceptT ε (StateM σ) α}
    {other : ExceptT ε (StateM σ) β} (parallel : Parallel C R A step other)
    : Parallel C R (Paired C A) (ExceptT.lift step.run) (ExceptT.lift other.run) := by
  intro s t related
  obtain ⟨paired, kept⟩ := parallel s t related
  exact ⟨.ok paired, kept⟩

theorem parallel_bind {A : α → β → Prop} {B : γ → δ → Prop} {step : ExceptT ε (StateM σ) α}
    {other : ExceptT ε (StateM σ) β} {f : α → ExceptT ε (StateM σ) γ}
    {g : β → ExceptT ε (StateM σ) δ} (first : Parallel C R A step other)
    (second : ∀ a b, A a b → Parallel C R B (f a) (g b))
    : Parallel C R B (step >>= f) (other >>= g) := by
  intro s t related
  obtain ⟨paired, kept⟩ := first s t related
  rw [run_keeping_bind, run_keeping_bind]
  rcases ran : step.run s with ⟨result, s'⟩
  rcases beside : other.run t with ⟨counterpart, t'⟩
  rw [ran, beside] at paired kept
  cases paired with
  | ok here => exact second _ _ here s' t' kept
  | error here => exact ⟨.error here, kept⟩

/-- The same for steps that come to the same result. -/
theorem parallel_bind_eq {B : γ → δ → Prop} {step other : ExceptT ε (StateM σ) α}
    {f : α → ExceptT ε (StateM σ) γ} {g : α → ExceptT ε (StateM σ) δ}
    (first : Parallel C R Eq step other) (second : ∀ a, Parallel C R B (f a) (g a))
    : Parallel C R B (step >>= f) (other >>= g) :=
  parallel_bind first fun a _ same => same ▸ second a

/-- A step that goes on with a plain result. -/
theorem parallel_ofExcept_bind {B : γ → δ → Prop} {x y : Except ε α}
    {f : α → ExceptT ε (StateM σ) γ} {g : α → ExceptT ε (StateM σ) δ} (paired : Paired C Eq x y)
    (second : ∀ a, x = .ok a → Parallel C R B (f a) (g a))
    : Parallel C R B (MonadExcept.ofExcept x >>= f) (MonadExcept.ofExcept y >>= g) := by
  cases paired with
  | ok same => exact same ▸ second _ rfl
  | error here => exact fun _ _ related => ⟨.error here, related⟩

/-- Lists of steps run in parallel if their steps do, by induction on the list. -/
theorem parallel_forM {f g : α → ExceptT ε (StateM σ) PUnit} {xs : List α}
    (each : ∀ x ∈ xs, Parallel C R Eq (f x) (g x))
    : Parallel C R Eq (xs.forM f) (xs.forM g) := by
  induction xs with
  | nil => exact parallel_pure rfl
  | cons x xs ih =>
      obtain ⟨head, tail⟩ := List.forall_mem_cons.mp each
      exact parallel_bind_eq head fun _ => ih tail

end SchematicHdl.Outcome
