import SchematicHdl.Proofs.Outcome

/-! Rules for steps that keep their state when they fail. A rule tells what a step leaves behind in
either case, so that a composed step is followed to its end through its failures too.
-/

namespace SchematicHdl.Outcome

variable {ε σ α β : Type}

-----------------------------------------------------------------------------------------
-- Causes
-----------------------------------------------------------------------------------------

/-- The cause of a failure. -/
def error? : Except ε α → Option ε
  | .ok _ => none
  | .error cause => some cause

theorem error?_eq_none {x : Except ε α} : error? x = none ↔ ∃ a, x = .ok a := by
  cases x <;> simp [error?]

theorem error?_eq_some {x : Except ε α} {cause : ε}
    : error? x = some cause ↔ x = .error cause := by
  cases x <;> simp [error?]

/-- A list of steps fails for the first cause among those of its steps, by induction on the list. -/
theorem error?_mapM {f : α → Except ε β} {xs : List α}
    : error? (xs.mapM f) = xs.findSome? (fun x => error? (f x)) := by
  induction xs with
  | nil => rfl
  | cons x xs ih =>
      rw [List.mapM_cons, List.findSome?_cons, ← ih]
      cases f x with
      | error cause => rfl
      | ok y => cases xs.mapM f <;> rfl

-----------------------------------------------------------------------------------------
-- Both ends of a step
-----------------------------------------------------------------------------------------

/-- The step comes to a result and a state of one kind, or to a cause and a state of another. -/
def Leads (step : ExceptT ε (StateM σ) α) (s : σ) (well : α → σ → Prop)
    (badly : ε → σ → Prop)
    : Prop :=
  match step.run s with
  | (.ok a, s') => well a s'
  | (.error cause, s') => badly cause s'

variable {s : σ} {badly : ε → σ → Prop}

section Single

variable {step : ExceptT ε (StateM σ) α} {well : α → σ → Prop}

theorem Leads.of_succeeds (leads : Leads step s well badly) {a : α} {s' : σ}
    (ok : Succeeds step s a s')
    : well a s' := by
  rwa [Leads, ok] at leads

theorem Leads.of_error (leads : Leads step s well badly) {cause : ε} {s' : σ}
    (failed : step.run s = (.error cause, s'))
    : badly cause s' := by
  rwa [Leads, failed] at leads

theorem Leads.imp {well' : α → σ → Prop} {badly' : ε → σ → Prop}
    (leads : Leads step s well badly) (weaker : ∀ a s', well a s' → well' a s')
    (worse : ∀ cause s', badly cause s' → badly' cause s')
    : Leads step s well' badly' := by
  unfold Leads at leads ⊢
  split at leads
  · exact weaker _ _ leads
  · exact worse _ _ leads

end Single

-----------------------------------------------------------------------------------------
-- Composed steps
-----------------------------------------------------------------------------------------

theorem leads_pure {a : α} {well : α → σ → Prop} (here : well a s)
    : Leads (pure a) s well badly :=
  here

theorem leads_throw {cause : ε} {well : α → σ → Prop} (here : badly cause s)
    : Leads (throw cause) s well badly :=
  here

theorem leads_get {well : σ → σ → Prop} (here : well s s) : Leads get s well badly := here

theorem leads_modify {f : σ → σ} {well : PUnit → σ → Prop} (here : well ⟨⟩ (f s))
    : Leads (modify f) s well badly :=
  here

theorem leads_ofExcept {x : Except ε α} {well : α → σ → Prop}
    (ok : ∀ a, x = .ok a → well a s) (error : ∀ cause, x = .error cause → badly cause s)
    : Leads (MonadExcept.ofExcept x) s well badly := by
  cases x with
  | ok a => exact ok a rfl
  | error cause => exact error cause rfl

theorem leads_bind {x : ExceptT ε (StateM σ) α} {f : α → ExceptT ε (StateM σ) β}
    {M : α → σ → Prop} {well : β → σ → Prop} (first : Leads x s M badly)
    (second : ∀ a s', M a s' → Leads (f a) s' well badly)
    : Leads (x >>= f) s well badly := by
  unfold Leads at first ⊢
  rw [run_keeping_bind]
  cases ran : x.run s with
  | mk result s' =>
      rw [ran] at first
      cases result with
      | ok a => exact second a s' first
      | error cause => exact first

/-- What each step of a list keeps, the whole list keeps, by induction on the list. -/
theorem leads_forM {f : α → ExceptT ε (StateM σ) PUnit} {xs : List α} {I : σ → Prop}
    (start : I s)
    (each : ∀ x ∈ xs, ∀ s, I s → Leads (f x) s (fun _ s' => I s') badly)
    : Leads (xs.forM f) s (fun _ s' => I s') badly := by
  induction xs generalizing s with
  | nil => exact start
  | cons x xs ih =>
      obtain ⟨head, tail⟩ := List.forall_mem_cons.mp each
      exact leads_bind (head s start) fun _ _ here => ih here tail

/-- Steps of a list fail where the first of them fails, by induction on those before it. -/
theorem forM_run_error {f : α → ExceptT ε (StateM σ) PUnit} {before after : List α} {x : α}
    {middle last : σ} {cause : ε} (succeeds : Succeeds (before.forM f) s ⟨⟩ middle)
    (failed : (f x).run middle = (.error cause, last))
    : ((before ++ x :: after).forM f).run s = (.error cause, last) := by
  induction before generalizing s with
  | nil =>
      obtain ⟨-, rfl⟩ := succeeds_pure.1 succeeds
      show (f x >>= fun _ => after.forM f).run s = _
      rw [run_keeping_bind, failed]
  | cons y before ih =>
      obtain ⟨⟨⟩, next, head, tail⟩ := succeeds_bind.1 succeeds
      show (f y >>= fun _ => (before ++ x :: after).forM f).run s = _
      rw [run_keeping_bind, show (f y).run s = _ from head]
      exact ih tail

-----------------------------------------------------------------------------------------
-- Steps that fail
-----------------------------------------------------------------------------------------

/-- The step fails from one state for a cause, whatever it leaves behind. -/
def Fails (step : ExceptT ε (StateM σ) α) (s : σ) (cause : ε) : Prop :=
  (step.run s).1 = .error cause

variable {cause : ε}

theorem not_fails_of_succeeds {step : ExceptT ε (StateM σ) α} {a : α} {s' : σ}
    (succeeds : Succeeds step s a s')
    : ¬Fails step s cause := by
  rw [Fails, show step.run s = _ from succeeds]
  exact nofun

theorem not_fails_pure {a : α} : ¬Fails (pure a : ExceptT ε (StateM σ) α) s cause := nofun

theorem fails_throw {other : ε}
    : Fails (throw other : ExceptT ε (StateM σ) α) s cause ↔ other = cause :=
  Except.error.injEq _ _ ▸ Iff.rfl

theorem fails_ofExcept {x : Except ε α}
    : Fails (MonadExcept.ofExcept x : ExceptT ε (StateM σ) α) s cause ↔ x = .error cause := by
  cases x with
  | ok a => exact ⟨nofun, nofun⟩
  | error other => exact fails_throw.trans (Except.error.injEq _ _ ▸ Iff.rfl)

theorem fails_bind {x : ExceptT ε (StateM σ) α} {f : α → ExceptT ε (StateM σ) β}
    : Fails (x >>= f) s cause
      ↔ Fails x s cause ∨ ∃ a s', Succeeds x s a s' ∧ Fails (f a) s' cause := by
  unfold Fails Succeeds
  rw [run_keeping_bind]
  rcases x.run s with ⟨result, middle⟩
  constructor
  · intro failed
    cases result with
    | ok a => exact .inr ⟨a, middle, rfl, failed⟩
    | error other => exact .inl (congrArg _ (Except.error.inj failed))
  · rintro (failed | ⟨a, s', ⟨⟩, failed⟩)
    · obtain rfl : result = .error cause := failed
      rfl
    · exact failed

/-- Steps of a list fail where one of them does after those before it, by induction on the list. -/
theorem fails_forM {f : α → ExceptT ε (StateM σ) PUnit} {xs : List α}
    (fails : Fails (xs.forM f) s cause)
    : ∃ before x after middle,
        xs = before ++ x :: after
        ∧ Succeeds (before.forM f) s ⟨⟩ middle
        ∧ Fails (f x) middle cause := by
  induction xs generalizing s with
  | nil => exact absurd fails not_fails_pure
  | cons x xs ih =>
      rcases fails_bind.mp fails with head | ⟨⟨⟩, next, head, tail⟩
      · exact ⟨[], x, xs, s, rfl, rfl, head⟩
      · obtain ⟨before, y, after, middle, rfl, succeeds, here⟩ := ih tail
        refine ⟨x :: before, y, after, middle, rfl, ?_, here⟩
        exact succeeds_bind.mpr ⟨⟨⟩, next, head, succeeds⟩

-----------------------------------------------------------------------------------------
-- Steps that never fail
-----------------------------------------------------------------------------------------

/-- The step succeeds from whatever state. -/
def Total (step : ExceptT ε (StateM σ) α) : Prop := ∀ s, ∃ a s', Succeeds step s a s'

theorem total_pure (a : α) : Total (pure a : ExceptT ε (StateM σ) α) := fun s => ⟨a, s, rfl⟩

theorem total_get : Total (get : ExceptT ε (StateM σ) σ) := fun s => ⟨s, s, rfl⟩

theorem total_modify (f : σ → σ) : Total (modify f : ExceptT ε (StateM σ) PUnit) :=
  fun s => ⟨⟨⟩, f s, rfl⟩

theorem total_ofExcept {x : Except ε α} (ok : ∃ a, x = .ok a)
    : Total (MonadExcept.ofExcept x : ExceptT ε (StateM σ) α) := by
  obtain ⟨a, rfl⟩ := ok
  exact total_pure a

theorem total_bind {x : ExceptT ε (StateM σ) α} {f : α → ExceptT ε (StateM σ) β}
    (first : Total x) (second : ∀ a, Total (f a))
    : Total (x >>= f) := by
  intro s
  obtain ⟨a, middle, head⟩ := first s
  obtain ⟨b, last, tail⟩ := second a middle
  exact ⟨b, last, succeeds_bind.mpr ⟨a, middle, head, tail⟩⟩

/-- A step that goes on with a plain result. -/
theorem total_ofExcept_bind {x : Except ε α} {f : α → ExceptT ε (StateM σ) β}
    (ok : ∃ a, x = .ok a) (second : ∀ a, x = .ok a → Total (f a))
    : Total (MonadExcept.ofExcept x >>= f) := by
  obtain ⟨a, rfl⟩ := ok
  exact second a rfl

/-- A list of steps that never fail never fails, by induction on the list. -/
theorem total_mapM {f : α → ExceptT ε (StateM σ) β} {xs : List α} (each : ∀ x ∈ xs, Total (f x))
    : Total (xs.mapM f) := by
  induction xs with
  | nil => exact total_pure []
  | cons x xs ih =>
      obtain ⟨head, tail⟩ := List.forall_mem_cons.mp each
      rw [List.mapM_cons]
      exact total_bind head fun _ => total_bind (ih tail) fun _ => total_pure _

end SchematicHdl.Outcome
