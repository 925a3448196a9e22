import Mathlib.Data.List.Forall2

/-! Outcomes of composed steps. A step that ends well after others ends well because each of them
did; the statements here take such a composition apart, for plain results, for steps that pass on a
state, and for steps that keep their state when they fail. The lists that such steps go along are
looked up, changed and paired.
-/

namespace SchematicHdl.Outcome

-----------------------------------------------------------------------------------------
-- Plain results
-----------------------------------------------------------------------------------------

section Plain

variable {ε α β : Type}

theorem bind_eq_ok {x : Except ε α} {f : α → Except ε β} {b : β}
    : x >>= f = .ok b ↔ ∃ a, x = .ok a ∧ f a = .ok b := by
  cases x <;> simp [bind, Except.bind]

theorem bind_eq_error {x : Except ε α} {f : α → Except ε β} {cause : ε}
    : x >>= f = .error cause ↔ x = .error cause ∨ ∃ a, x = .ok a ∧ f a = .error cause := by
  cases x <;> simp [bind, Except.bind]

theorem exists_bind_ok {x : Except ε α} {f : α → Except ε β} (first : ∃ a, x = .ok a)
    (second : ∀ a, ∃ b, f a = .ok b)
    : ∃ b, x >>= f = .ok b := by
  obtain ⟨a, rfl⟩ := first
  exact second a

/-- A step without a result before another one. -/
theorem then_eq_ok {x : Except ε Unit} {f : Unit → Except ε β} {b : β}
    : x >>= f = .ok b ↔ x = .ok () ∧ f () = .ok b := by
  cases x <;> simp [bind, Except.bind]

theorem map_eq_ok {x : Except ε α} {f : α → β} {b : β}
    : f <$> x = .ok b ↔ ∃ a, x = .ok a ∧ f a = b := by
  cases x <;> simp [Functor.map, Except.map]

theorem mapError_eq_ok {ε' : Type} {x : Except ε α} {f : ε → ε'} {a : α}
    : x.mapError f = .ok a ↔ x = .ok a := by
  cases x <;> simp [Except.mapError]

theorem toOption_eq_some {x : Except ε α} {a : α} : x.toOption = some a ↔ x = .ok a := by
  cases x <;> simp [Except.toOption]

theorem pure_eq_ok {a b : α} : (pure a : Except ε α) = .ok b ↔ a = b := by
  simp [pure, Except.pure]

theorem throw_ne_ok {error : ε} {a : α} : (throw error : Except ε α) ≠ .ok a := by
  simp [throw, throwThe, MonadExceptOf.throw]

/-- All steps of a list succeed just when each one does, by induction on the list. -/
theorem mapM_eq_ok {f : α → Except ε β} {xs : List α} {ys : List β}
    : xs.mapM f = .ok ys ↔ List.Forall₂ (fun x y => f x = .ok y) xs ys := by
  induction xs generalizing ys with
  | nil =>
      simp only [List.mapM_nil, pure_eq_ok]
      constructor
      · rintro rfl
        exact .nil
      · rintro ⟨⟩
        rfl
  | cons x xs ih =>
      simp only [List.mapM_cons, bind_eq_ok, pure_eq_ok, ih]
      constructor
      · rintro ⟨y, hy, rest, hrest, rfl⟩
        exact .cons hy hrest
      · rintro (_ | ⟨hy, hrest⟩)
        exact ⟨_, hy, _, hrest, rfl⟩

theorem forM_eq_ok {f : α → Except ε Unit} {xs : List α}
    : xs.forM f = .ok () ↔ ∀ x ∈ xs, f x = .ok () := by
  induction xs with
  | nil => simp [List.forM, pure, Except.pure]
  | cons x xs ih =>
      show (f x >>= fun _ => xs.forM f) = _ ↔ _
      rw [bind_eq_ok, List.forall_mem_cons, ← ih]
      constructor
      · intro ⟨_, head, tail⟩
        exact ⟨head, tail⟩
      · intro ⟨head, tail⟩
        exact ⟨_, head, tail⟩

/-- A list of steps succeeds if each one does, by induction on the list. -/
theorem mapM_eq_map {f : α → Except ε β} {g : α → β} {xs : List α}
    (each : ∀ x ∈ xs, f x = .ok (g x))
    : xs.mapM f = .ok (xs.map g) :=
  mapM_eq_ok.2 (List.forall₂_map_right_iff.mpr (List.forall₂_same.mpr each))

theorem exists_mapM_ok {f : α → Except ε β} {xs : List α} (each : ∀ x ∈ xs, ∃ y, f x = .ok y)
    : ∃ ys, xs.mapM f = .ok ys := by
  induction xs with
  | nil => exact ⟨[], rfl⟩
  | cons x xs ih =>
      obtain ⟨y, head⟩ := each x List.mem_cons_self
      obtain ⟨ys, tail⟩ := ih fun x member => each x (List.mem_cons_of_mem _ member)
      refine ⟨y :: ys, ?_⟩
      rw [List.mapM_cons, head, bind_eq_ok]
      exact ⟨y, rfl, bind_eq_ok.2 ⟨ys, tail, rfl⟩⟩

/-- A fold succeeds if each of its steps keeps what lets the next one succeed, by induction on the
list.
-/
theorem exists_foldlM_ok {f : β → α → Except ε β} {xs : List α} {I : β → Prop} {b : β}
    (start : I b) (each : ∀ x ∈ xs, ∀ b, I b → ∃ b', f b x = .ok b' ∧ I b')
    : ∃ b', xs.foldlM f b = .ok b' ∧ I b' := by
  induction xs generalizing b with
  | nil => exact ⟨b, rfl, start⟩
  | cons x xs ih =>
      obtain ⟨middle, head, kept⟩ := each x List.mem_cons_self b start
      obtain ⟨last, tail, ends⟩ := ih kept fun x member => each x (List.mem_cons_of_mem _ member)
      refine ⟨last, ?_, ends⟩
      rw [List.foldlM_cons, head]
      exact tail

/-- A filter succeeds if it decides on every entry, by induction on the list. -/
theorem exists_filterM_ok {f : α → Except ε Bool} {xs : List α}
    (each : ∀ x ∈ xs, ∃ passes, f x = .ok passes)
    : ∃ ys, xs.filterM f = .ok ys := by
  have gathered (collected : List α) : ∃ ys, xs.filterAuxM f collected = .ok ys := by
    induction xs generalizing collected with
    | nil => exact ⟨collected, rfl⟩
    | cons x xs ih =>
        obtain ⟨head, tail⟩ := List.forall_mem_cons.mp each
        exact exists_bind_ok head fun passes => ih tail _
  exact exists_bind_ok (gathered []) fun _ => ⟨_, rfl⟩

/-- A filter that succeeds has decided on every entry, and keeps those that pass; by induction on
the list.
-/
theorem mem_filterM {f : α → Except ε Bool} {xs ys : List α} (h : xs.filterM f = .ok ys)
    : (∀ x ∈ xs, ∃ passes, f x = .ok passes) ∧ ∀ y, y ∈ ys ↔ y ∈ xs ∧ f y = .ok true := by
  have gathered
      : ∀ (xs collected ys : List α),
          xs.filterAuxM f collected = .ok ys
          → (∀ x ∈ xs, ∃ passes, f x = .ok passes)
            ∧ ∀ y, y ∈ ys ↔ (y ∈ xs ∧ f y = .ok true) ∨ y ∈ collected := by
    intro xs
    induction xs with
    | nil =>
        intro collected ys h
        obtain rfl := pure_eq_ok.1 h
        simp
    | cons x xs ih =>
        intro collected ys h
        simp only [List.filterAuxM, bind_eq_ok] at h
        obtain ⟨passes, here, rest⟩ := h
        obtain ⟨decided, kept⟩ := ih _ _ rest
        refine ⟨List.forall_mem_cons.mpr ⟨⟨passes, here⟩, decided⟩, fun y => ?_⟩
        rw [kept, List.mem_cons]
        by_cases same : y = x
        · subst same
          cases passes <;> simp [here]
        · cases passes <;> simp [same]
  simp only [List.filterM, bind_eq_ok, pure_eq_ok] at h
  obtain ⟨reversed, filtered, rfl⟩ := h
  obtain ⟨decided, kept⟩ := gathered _ _ _ filtered
  exact ⟨decided, fun y => by simp [kept]⟩

/-- A filter that decides as a predicate does keeps what passes, by induction on the list. -/
theorem filterM_eq_ok {f : α → Except ε Bool} {passes : α → Bool} {xs : List α}
    (each : ∀ x ∈ xs, f x = .ok (passes x))
    : xs.filterM f = .ok (xs.filter passes) := by
  have gathered (collected : List α)
      : xs.filterAuxM f collected = .ok ((xs.filter passes).reverse ++ collected) := by
    induction xs generalizing collected with
    | nil => rfl
    | cons x xs ih =>
        obtain ⟨head, tail⟩ := List.forall_mem_cons.mp each
        rw [List.filterAuxM, head, List.filter_cons]
        refine (ih tail _).trans ?_
        cases passes x <;> simp
  rw [List.filterM, gathered []]
  simp [bind, Except.bind, pure, Except.pure]

/-- Steps on changed values, with the same change of their results, by induction on the list. -/
theorem mapM_map_eq {m : Type → Type} [Monad m] [LawfulMonad m] {α β γ δ : Type} {f : α → m β}
    {g : γ → m δ} (before : α → γ) (after : β → δ) {xs : List α}
    (each : ∀ x ∈ xs, g (before x) = after <$> f x)
    : (xs.map before).mapM g = List.map after <$> xs.mapM f := by
  induction xs with
  | nil => simp
  | cons x xs ih =>
      obtain ⟨head, tail⟩ := List.forall_mem_cons.mp each
      simp only [List.map_cons, List.mapM_cons, head, ih tail, bind_map_left, map_bind, map_pure]

/-- Values that are all present are the entries of the list, by induction on the list. -/
theorem eq_of_mapM_id {xs : List (Option α)} {ys : List α} (h : xs.mapM id = some ys)
    : xs = ys.map some := by
  induction xs generalizing ys with
  | nil =>
      obtain rfl : [] = ys := by simpa using h
      rfl
  | cons x xs ih =>
      cases x with
      | none => simp at h
      | some first =>
          obtain ⟨rest, all, rfl⟩ : ∃ rest, xs.mapM id = some rest ∧ first :: rest = ys := by
            simpa [Option.bind_eq_some_iff] using h
          rw [ih all, List.map_cons]

end Plain

-----------------------------------------------------------------------------------------
-- Causes of failure
-----------------------------------------------------------------------------------------

section Failing

variable {ε σ α β : Type}

/-- If the result is a failure, then for a cause of one kind. -/
def FailsBy (badly : ε → Prop) (x : Except ε α) : Prop := ∀ cause, x = .error cause → badly cause

variable {badly : ε → Prop}

theorem failsBy_ok {a : α} : FailsBy badly (.ok a) := nofun

theorem failsBy_error {cause : ε} (here : badly cause)
    : FailsBy badly (.error cause : Except ε α) := by
  intro other same
  exact Except.error.inj same ▸ here

theorem failsBy_bind {x : Except ε α} {f : α → Except ε β} (first : FailsBy badly x)
    (second : ∀ a, x = .ok a → FailsBy badly (f a))
    : FailsBy badly (x >>= f) := by
  cases x with
  | error cause =>
      intro other same
      obtain rfl : cause = other := Except.error.inj same
      exact first cause rfl
  | ok a => exact second a rfl

theorem failsBy_of_ok {x : Except ε α} {a : α} (ok : x = .ok a) : FailsBy badly x :=
  ok ▸ failsBy_ok

theorem failsBy_mapM {f : α → Except ε β} {xs : List α} (each : ∀ x ∈ xs, FailsBy badly (f x))
    : FailsBy badly (xs.mapM f) := by
  induction xs with
  | nil => exact failsBy_ok
  | cons x xs ih =>
      rw [List.mapM_cons]
      obtain ⟨head, tail⟩ := List.forall_mem_cons.mp each
      exact failsBy_bind head fun _ _ => failsBy_bind (ih tail) fun _ _ => failsBy_ok

/-- A fold fails for causes of one kind if its steps do and keep what they rely on, by induction on
the list.
-/
theorem failsBy_foldlM {f : β → α → Except ε β} {xs : List α} {I : β → Prop} {b : β}
    (start : I b)
    (each : ∀ x ∈ xs, ∀ b, I b → FailsBy badly (f b x) ∧ ∀ b', f b x = .ok b' → I b')
    : FailsBy badly (xs.foldlM f b) ∧ ∀ last, xs.foldlM f b = .ok last → I last := by
  induction xs generalizing b with
  | nil => exact ⟨failsBy_ok, fun _ same => pure_eq_ok.1 same ▸ start⟩
  | cons x xs ih =>
      rw [List.foldlM_cons]
      obtain ⟨head, tail⟩ := List.forall_mem_cons.mp each
      obtain ⟨failing, keeps⟩ := head b start
      refine ⟨failsBy_bind failing fun b' step => (ih (keeps b' step) tail).1, ?_⟩
      intro last folded
      obtain ⟨b', step, rest⟩ := bind_eq_ok.1 folded
      exact (ih (keeps b' step) tail).2 last rest

end Failing

-----------------------------------------------------------------------------------------
-- Lists
-----------------------------------------------------------------------------------------

section Lists

variable {α β : Type}

theorem mem_of_lookup_eq_some [BEq α] [LawfulBEq α] {key : α} {value : β}
    {entries : List (α × β)} (found : entries.lookup key = some value)
    : (key, value) ∈ entries := by
  obtain ⟨before, after, rfl, -⟩ := List.lookup_eq_some_iff.mp found
  simp

/-- Where a key has one value at most, a lookup finds the values that are listed. -/
theorem lookup_eq_some_iff_mem [BEq α] [LawfulBEq α] {key : α} {entries : List (α × β)}
    (functional : ∀ v w, (key, v) ∈ entries → (key, w) ∈ entries → v = w) {value : β}
    : entries.lookup key = some value ↔ (key, value) ∈ entries := by
  refine ⟨mem_of_lookup_eq_some, fun listed => ?_⟩
  cases found : entries.lookup key with
  | none =>
      have absent := List.lookup_eq_none_iff.mp found _ listed
      simp at absent
  | some other => rw [functional _ _ (mem_of_lookup_eq_some found) listed]

/-- What a list holds after a change at one position. -/
theorem mem_of_mem_modify {xs : List α} {i : Nat} {change : α → α} {x : α}
    (member : x ∈ xs.modify i change)
    : x ∈ xs ∨ ∃ y ∈ xs, x = change y := by
  obtain ⟨position, found⟩ := List.getElem?_of_mem member
  rw [List.getElem?_modify] at found
  obtain ⟨y, there, same⟩ := Option.map_eq_some_iff.mp found
  have listed := List.mem_of_getElem? there
  split at same
  · exact .inr ⟨y, listed, same.symm⟩
  · exact .inl (same ▸ listed)

/-- A change at one position leaves alone what it keeps of each entry. -/
theorem map_modify_eq {xs : List α} {i : Nat} {change : α → α} {f : α → β}
    (kept : ∀ x, f (change x) = f x)
    : (xs.modify i change).map f = xs.map f := by
  apply List.ext_getElem?
  intro j
  simp only [List.getElem?_map, List.getElem?_modify]
  cases xs[j]? with
  | none => rfl
  | some x =>
      by_cases here : i = j
      · simp [here, kept]
      · simp [here]

/-- Paired lists have paired entries, by induction on the pairing. -/
theorem forall₂_getElem? {R : α → β → Prop} {xs : List α} {ys : List β}
    (paired : List.Forall₂ R xs ys) {i : Nat} {x : α} (found : xs[i]? = some x)
    : ∃ y, ys[i]? = some y ∧ R x y := by
  induction paired generalizing i with
  | nil => simp at found
  | cons head _ ih =>
      cases i with
      | zero =>
          obtain rfl : _ = x := by simpa using found
          exact ⟨_, rfl, head⟩
      | succ i => exact ih (by simpa using found)

theorem forall₂_trans {γ : Type} {R : α → β → Prop} {S : β → γ → Prop} {T : α → γ → Prop}
    {xs : List α} {ys : List β} {zs : List γ} (first : List.Forall₂ R xs ys)
    (second : List.Forall₂ S ys zs) (composed : ∀ {x y z}, R x y → S y z → T x z)
    : List.Forall₂ T xs zs := by
  induction first generalizing zs with
  | nil =>
      cases second
      exact .nil
  | cons head _ ih =>
      cases second with
      | cons next rest => exact .cons (composed head next) (ih rest)

theorem forall₂_imp_mem {R S : α → β → Prop} {xs : List α} {ys : List β}
    (paired : List.Forall₂ R xs ys) (each : ∀ x ∈ xs, ∀ y ∈ ys, R x y → S x y)
    : List.Forall₂ S xs ys := by
  rw [List.forall₂_iff_zip] at paired ⊢
  refine ⟨paired.1, fun member => ?_⟩
  obtain ⟨left, right⟩ := List.of_mem_zip member
  exact each _ left _ right (paired.2 member)

/-- What is paired with a list in two parts has two parts itself, by induction on the first part. -/
theorem forall₂_append_left {R : α → β → Prop} {xs xs' : List α} {ys : List β}
    (paired : List.Forall₂ R (xs ++ xs') ys)
    : ∃ first second,
        ys = first ++ second ∧ List.Forall₂ R xs first ∧ List.Forall₂ R xs' second := by
  induction xs generalizing ys with
  | nil => exact ⟨[], ys, rfl, .nil, paired⟩
  | cons x xs ih =>
      cases paired with
      | cons head tail =>
          obtain ⟨first, second, rfl, front, back⟩ := ih tail
          exact ⟨_ :: first, second, rfl, .cons head front, back⟩

/-- Every entry of the right list has a partner in the left one. -/
theorem forall₂_mem_right {R : α → β → Prop} {xs : List α} {ys : List β}
    (paired : List.Forall₂ R xs ys) {y : β} (member : y ∈ ys)
    : ∃ x ∈ xs, R x y := by
  obtain ⟨i, found⟩ := List.getElem?_of_mem member
  obtain ⟨x, atLeft, related⟩ := forall₂_getElem? paired.flip found
  exact ⟨x, List.mem_of_getElem? atLeft, related⟩

/-- What relates two lists item by item is listed beside the first of them. -/
theorem forall₂_exists {γ : Type} {R : α → γ → β → Prop} {xs : List α} {ys : List β}
    (paired : List.Forall₂ (fun x y => ∃ z, R x z y) xs ys)
    : ∃ pairs : List (α × γ),
        pairs.map Prod.fst = xs ∧ List.Forall₂ (fun pair y => R pair.1 pair.2 y) pairs ys := by
  induction paired with
  | nil => exact ⟨[], rfl, .nil⟩
  | @cons x y _ _ head _ ih =>
      obtain ⟨z, related⟩ := head
      obtain ⟨pairs, rfl, rest⟩ := ih
      exact ⟨(x, z) :: pairs, rfl, .cons related rest⟩

/-- Paired entries that make the same of themselves make the same list, by induction on the pairing.
-/
theorem filterMap_eq_of_forall₂ {γ : Type} {R : α → β → Prop} {xs : List α} {ys : List β}
    (paired : List.Forall₂ R xs ys) {f : α → Option γ} {g : β → Option γ}
    (same : ∀ x y, R x y → f x = g y)
    : xs.filterMap f = ys.filterMap g := by
  induction paired with
  | nil => rfl
  | cons head _ ih => rw [List.filterMap_cons, List.filterMap_cons, same _ _ head, ih]

theorem flatMap_eq_of_forall₂ {γ : Type} {R : α → β → Prop} {xs : List α} {ys : List β}
    (paired : List.Forall₂ R xs ys) {f : α → List γ} {g : β → List γ}
    (same : ∀ x y, R x y → f x = g y)
    : xs.flatMap f = ys.flatMap g := by
  induction paired with
  | nil => rfl
  | cons head _ ih => rw [List.flatMap_cons, List.flatMap_cons, same _ _ head, ih]

theorem forall₂_zip_map {γ : Type} {R : α → β → Prop} {xs : List α} {ys : List β}
    (paired : List.Forall₂ R xs ys) (f : α → γ)
    : List.Forall₂ (fun x pair => pair.1 = f x ∧ R x pair.2) xs ((xs.map f).zip ys) := by
  induction paired with
  | nil => exact .nil
  | cons head _ ih => exact .cons ⟨rfl, head⟩ ih

end Lists

-----------------------------------------------------------------------------------------
-- Chains of steps
-----------------------------------------------------------------------------------------

section Chains

variable {α β σ : Type}

/-- A state that is passed on along a list, one step for each entry. -/
inductive Chained (step : α → σ → σ → Prop) : List α → σ → σ → Prop
  | nil {s} : Chained step [] s s
  | cons {x xs s s' s''} (head : step x s s') (tail : Chained step xs s' s'')
    : Chained step (x :: xs) s s''

/-- What every step keeps, a chain keeps, by induction on the chain. -/
theorem Chained.keeps {step : α → σ → σ → Prop} {xs : List α} {s s' : σ}
    (chained : Chained step xs s s') {P : σ → Prop}
    (each : ∀ x ∈ xs, ∀ s s', step x s s' → P s → P s') (start : P s)
    : P s' := by
  induction chained with
  | nil => exact start
  | cons head _ ih =>
      exact ih (fun x member => each x (List.mem_cons_of_mem _ member))
        (each _ List.mem_cons_self _ _ head start)

theorem Chained.imp {step other : α → σ → σ → Prop} {xs : List α} {s s' : σ}
    (chained : Chained step xs s s') (each : ∀ x s s', step x s s' → other x s s')
    : Chained other xs s s' := by
  induction chained with
  | nil => exact .nil
  | cons head _ ih => exact .cons (each _ _ _ head) ih

/-- Each step of a chain is taken somewhere, and the states only rise from there in some order; by
induction on the chain.
-/
theorem Chained.exists_step {step : α → σ → σ → Prop} {xs : List α} {s s' : σ}
    (chained : Chained step xs s s') {le : σ → σ → Prop} (refl : ∀ s, le s s)
    (trans : ∀ {a b c}, le a b → le b c → le a c)
    (rises : ∀ x ∈ xs, ∀ s s', step x s s' → le s s') {x : α} (member : x ∈ xs)
    : ∃ before after, step x before after ∧ le after s' := by
  induction chained with
  | nil => cases member
  | @cons y rest s s' s'' head tail ih =>
      have later := fun x member => rises x (List.mem_cons_of_mem y member)
      rcases List.mem_cons.mp member with rfl | inside
      · refine ⟨s, s', head, tail.keeps (P := le s') ?_ (refl s')⟩
        exact fun x member _ _ taken sofar => trans sofar (later x member _ _ taken)
      · exact ih later inside

/-- A state that is passed on along a list, with a result for each entry. -/
inductive Threaded (step : α → σ → β → σ → Prop) : List α → σ → List β → σ → Prop
  | nil {s} : Threaded step [] s [] s
  | cons {x xs s y s' ys s''} (head : step x s y s') (tail : Threaded step xs s' ys s'')
    : Threaded step (x :: xs) s (y :: ys) s''

variable {step : α → σ → β → σ → Prop} {xs : List α} {s : σ} {ys : List β} {s' : σ}

theorem Threaded.imp {other : α → σ → β → σ → Prop} (threaded : Threaded step xs s ys s')
    (each : ∀ x s y s', step x s y s' → other x s y s')
    : Threaded other xs s ys s' := by
  induction threaded with
  | nil => exact .nil
  | cons head _ ih => exact .cons (each _ _ _ _ head) ih

/-- What holds of every step holds of each result, by induction on the steps. -/
theorem Threaded.forall₂ (threaded : Threaded step xs s ys s') {R : α → β → Prop}
    (each : ∀ x s y s', x ∈ xs → step x s y s' → R x y)
    : List.Forall₂ R xs ys := by
  induction threaded with
  | nil => exact .nil
  | cons head _ ih =>
      refine .cons (each _ _ _ _ List.mem_cons_self head) (ih fun x s y s' member => ?_)
      exact each x s y s' (List.mem_cons_of_mem _ member)

/-- What every step keeps, all of them keep, by induction on the steps. -/
theorem Threaded.keeps (threaded : Threaded step xs s ys s') {P : σ → Prop}
    (each : ∀ x s y s', step x s y s' → P s → P s') (start : P s)
    : P s' := by
  induction threaded with
  | nil => exact start
  | cons head _ ih => exact ih (each _ _ _ _ head start)

/-- What each step establishes for its own state and every later one holds in the end, where the
states only rise in some order.
-/
theorem Threaded.forall₂_settled (threaded : Threaded step xs s ys s') (le : σ → σ → Prop)
    (refl : ∀ s, le s s) (trans : ∀ {a b c}, le a b → le b c → le a c)
    (rises : ∀ x s y s', x ∈ xs → step x s y s' → le s s') (R : α → β → σ → Prop)
    (each : ∀ x s y s' last, x ∈ xs → step x s y s' → le s' last → R x y last)
    : le s s' ∧ List.Forall₂ (fun x y => R x y s') xs ys := by
  induction threaded with
  | nil => exact ⟨refl _, .nil⟩
  | cons head _ ih =>
      have later :=
        ih (fun x s y s' member => rises x s y s' (List.mem_cons_of_mem _ member))
          fun x s y s' last member => each x s y s' last (List.mem_cons_of_mem _ member)
      exact
        ⟨trans (rises _ _ _ _ List.mem_cons_self head) later.1,
          .cons (each _ _ _ _ _ List.mem_cons_self head later.1) later.2⟩

end Chains

-----------------------------------------------------------------------------------------
-- Steps that pass on a state
-----------------------------------------------------------------------------------------

section Stateful

variable {ε σ α β : Type}

theorem run_bind_eq_ok {x : StateT σ (Except ε) α} {f : α → StateT σ (Except ε) β} {s : σ}
    {result : β × σ}
    : (x >>= f).run s = .ok result
      ↔ ∃ a s', x.run s = .ok (a, s') ∧ (f a).run s' = .ok result := by
  simp only [StateT.run_bind, bind_eq_ok, Prod.exists]

/-- A composed step goes on from where its first part ends. -/
theorem run_bind_of_ok {x : StateT σ (Except ε) α} {f : α → StateT σ (Except ε) β} {s s' : σ}
    {a : α} (ok : x.run s = .ok (a, s'))
    : (x >>= f).run s = (f a).run s' := by
  rw [StateT.run_bind, ok]
  rfl

/-- A composed step fails in its first part, or in its second part after the first one. -/
theorem run_bind_eq_error {x : StateT σ (Except ε) α} {f : α → StateT σ (Except ε) β} {s : σ}
    {cause : ε}
    : (x >>= f).run s = .error cause
      ↔ x.run s = .error cause
        ∨ ∃ a s', x.run s = .ok (a, s') ∧ (f a).run s' = .error cause := by
  rw [StateT.run_bind]
  cases x.run s with
  | error other => simp [bind, Except.bind]
  | ok result =>
      obtain ⟨a, s'⟩ := result
      simp [bind, Except.bind]

theorem run_pure_eq_ok {a : α} {s : σ} {result : α × σ}
    : (pure a : StateT σ (Except ε) α).run s = .ok result ↔ (a, s) = result := by
  rw [StateT.run_pure, pure_eq_ok]

theorem run_get_eq_ok {s : σ} {result : σ × σ}
    : (get : StateT σ (Except ε) σ).run s = .ok result ↔ (s, s) = result := by
  rw [StateT.run_get, pure_eq_ok]

theorem run_set_eq_ok {s s' : σ} {result : PUnit × σ}
    : (set s' : StateT σ (Except ε) PUnit).run s = .ok result ↔ (⟨⟩, s') = result := by
  rw [StateT.run_set, pure_eq_ok]

theorem run_modify_eq_ok {f : σ → σ} {s : σ} {result : PUnit × σ}
    : (modify f : StateT σ (Except ε) PUnit).run s = .ok result ↔ (⟨⟩, f s) = result := by
  rw [StateT.run_modify, pure_eq_ok]

theorem run_throw_ne_ok {error : ε} {s : σ} {result : α × σ}
    : (throw error : StateT σ (Except ε) α).run s ≠ .ok result := by
  simp [throw, throwThe, MonadExceptOf.throw, StateT.lift, bind, Except.bind, StateT.run]

theorem run_lift_eq_ok {x : Except ε α} {s : σ} {result : α × σ}
    : (monadLift x : StateT σ (Except ε) α).run s = .ok result
      ↔ ∃ a, x = .ok a ∧ (a, s) = result := by
  simp [map_eq_ok]

theorem run_ofExcept_eq_ok {x : Except ε α} {s : σ} {result : α × σ}
    : (MonadExcept.ofExcept x : StateT σ (Except ε) α).run s = .ok result
      ↔ ∃ a, x = .ok a ∧ (a, s) = result := by
  cases x with
  | ok a => simpa [MonadExcept.ofExcept] using run_pure_eq_ok
  | error error => simpa [MonadExcept.ofExcept] using run_throw_ne_ok

theorem run_discard_eq_ok {x : StateT σ (Except ε) α} {s s' : σ} {result : Unit}
    : (discard x).run s = .ok (result, s') ↔ ∃ a, x.run s = .ok (a, s') := by
  show (x >>= fun _ => pure ()).run s = _ ↔ _
  simp only [run_bind_eq_ok, run_pure_eq_ok, Prod.mk.injEq]
  constructor
  · rintro ⟨a, _, h, _, rfl⟩
    exact ⟨a, h⟩
  · rintro ⟨a, h⟩
    exact ⟨a, s', h, trivial, rfl⟩

theorem mapM_run_eq_ok {f : α → StateT σ (Except ε) β} {xs : List α} {s : σ} {ys : List β}
    {s' : σ}
    : (xs.mapM f).run s = .ok (ys, s')
      ↔ Threaded (fun x s y s' => (f x).run s = .ok (y, s')) xs s ys s' := by
  induction xs generalizing s ys with
  | nil =>
      simp only [List.mapM_nil, run_pure_eq_ok, Prod.mk.injEq]
      constructor
      · rintro ⟨rfl, rfl⟩
        exact .nil
      · rintro ⟨⟩
        exact ⟨rfl, rfl⟩
  | cons x xs ih =>
      simp only [List.mapM_cons, run_bind_eq_ok, run_pure_eq_ok, Prod.mk.injEq]
      constructor
      · rintro ⟨y, middle, hy, rest, _, hrest, rfl, rfl⟩
        exact .cons hy (ih.1 hrest)
      · rintro (_ | ⟨hy, hrest⟩)
        exact ⟨_, _, hy, _, _, ih.2 hrest, rfl, rfl⟩

/-- Steps that fail do so at an entry, after all entries before it have succeeded; by induction on
the list.
-/
theorem forM_run_eq_error {f : α → StateT σ (Except ε) PUnit} {xs : List α} {s : σ} {cause : ε}
    (failed : (xs.forM f).run s = .error cause)
    : ∃ before x after s',
        xs = before ++ x :: after
        ∧ (before.forM f).run s = .ok (⟨⟩, s')
        ∧ (f x).run s' = .error cause := by
  induction xs generalizing s with
  | nil => cases failed
  | cons x xs ih =>
      rcases run_bind_eq_error.1 failed with head | ⟨_, middle, head, tail⟩
      · exact ⟨[], x, xs, s, rfl, rfl, head⟩
      · obtain ⟨before, y, after, last, rfl, succeeded, here⟩ := ih tail
        refine ⟨x :: before, y, after, last, rfl, ?_, here⟩
        exact run_bind_eq_ok.2 ⟨_, _, head, succeeded⟩

/-- The same for steps with results. -/
theorem mapM_run_eq_error {f : α → StateT σ (Except ε) β} {xs : List α} {s : σ} {cause : ε}
    (failed : (xs.mapM f).run s = .error cause)
    : ∃ before x after ys s',
        xs = before ++ x :: after
        ∧ (before.mapM f).run s = .ok (ys, s')
        ∧ (f x).run s' = .error cause := by
  induction xs generalizing s with
  | nil => cases failed
  | cons x xs ih =>
      rw [List.mapM_cons] at failed
      rcases run_bind_eq_error.1 failed with head | ⟨y, middle, head, tail⟩
      · exact ⟨[], x, xs, [], s, rfl, rfl, head⟩
      · rcases run_bind_eq_error.1 tail with rest | ⟨_, _, _, done⟩
        · obtain ⟨before, x', after, ys, last, rfl, succeeded, here⟩ := ih rest
          refine ⟨x :: before, x', after, y :: ys, last, rfl, ?_, here⟩
          rw [List.mapM_cons, run_bind_eq_ok]
          exact ⟨y, middle, head, run_bind_eq_ok.2 ⟨ys, last, succeeded, rfl⟩⟩
        · cases done

theorem forM_run_eq_ok {f : α → StateT σ (Except ε) PUnit} {xs : List α} {s s' : σ}
    : (xs.forM f).run s = .ok (⟨⟩, s')
      ↔ Chained (fun x s s' => (f x).run s = .ok (⟨⟩, s')) xs s s' := by
  induction xs generalizing s with
  | nil =>
      simp only [List.forM, run_pure_eq_ok, Prod.mk.injEq, true_and]
      constructor
      · rintro rfl
        exact .nil
      · rintro ⟨⟩
        rfl
  | cons x xs ih =>
      simp only [List.forM, run_bind_eq_ok, ih]
      constructor
      · rintro ⟨⟨⟩, middle, head, tail⟩
        exact .cons head tail
      · rintro (_ | ⟨head, tail⟩)
        exact ⟨⟨⟩, _, head, tail⟩

/-- A changed plain result is taken over into what comes next. -/
theorem passing_ofExcept_map_bind {γ : Type} {x : Except ε α} (change : α → β)
    (next : β → StateT σ (Except ε) γ)
    : MonadExcept.ofExcept (change <$> x) >>= next
      = MonadExcept.ofExcept x >>= fun a => next (change a) := by
  cases x <;> rfl

end Stateful

-----------------------------------------------------------------------------------------
-- Steps that end well or badly
-----------------------------------------------------------------------------------------

section Ending

variable {ε σ α β : Type}

/-- The step ends well with a result and a state of one kind, or badly for a cause of another. -/
def Ends (step : StateT σ (Except ε) α) (s : σ) (well : α → σ → Prop) (badly : ε → Prop) : Prop :=
  match step.run s with
  | .ok (a, s') => well a s'
  | .error cause => badly cause

variable {s : σ} {badly : ε → Prop}

theorem ends_of_ok {step : StateT σ (Except ε) α} {a : α} {s' : σ} {well : α → σ → Prop}
    (ok : step.run s = .ok (a, s')) (here : well a s')
    : Ends step s well badly := by
  rw [Ends, ok]
  exact here

theorem ends_of_error {step : StateT σ (Except ε) α} {cause : ε} {well : α → σ → Prop}
    (error : step.run s = .error cause) (here : badly cause)
    : Ends step s well badly := by
  rw [Ends, error]
  exact here

theorem Ends.imp {step : StateT σ (Except ε) α} {well well' : α → σ → Prop}
    (ends : Ends step s well badly) (weaker : ∀ a s', well a s' → well' a s')
    : Ends step s well' badly := by
  unfold Ends at ends ⊢
  cases ran : step.run s with
  | ok result =>
      rw [ran] at ends
      exact weaker _ _ ends
  | error cause =>
      rw [ran] at ends
      exact ends

theorem Ends.worse {step : StateT σ (Except ε) α} {well : α → σ → Prop} {badly' : ε → Prop}
    (ends : Ends step s well badly) (weaker : ∀ cause, badly cause → badly' cause)
    : Ends step s well badly' := by
  unfold Ends at ends ⊢
  cases ran : step.run s with
  | ok result =>
      rw [ran] at ends
      exact ends
  | error cause =>
      rw [ran] at ends
      exact weaker _ ends

theorem ends_bind {x : StateT σ (Except ε) α} {f : α → StateT σ (Except ε) β}
    {M : α → σ → Prop} {well : β → σ → Prop} (first : Ends x s M badly)
    (second : ∀ a s', M a s' → Ends (f a) s' well badly)
    : Ends (x >>= f) s well badly := by
  unfold Ends at first ⊢
  rw [StateT.run_bind]
  cases ran : x.run s with
  | ok result =>
      rw [ran] at first
      exact second _ _ first
  | error cause =>
      rw [ran] at first
      exact first

theorem ends_after {x : StateT σ (Except ε) α} {f : α → StateT σ (Except ε) β} {a : α} {s' : σ}
    {well : β → σ → Prop} (ok : x.run s = .ok (a, s')) (second : Ends (f a) s' well badly)
    : Ends (x >>= f) s well badly := by
  rw [Ends, run_bind_of_ok ok]
  exact second

theorem ends_lift {x : Except ε α} {well : α → σ → Prop} (succeeds : ∀ a, x = .ok a → well a s)
    (fails : FailsBy badly x)
    : Ends (monadLift x) s well badly := by
  cases result : x with
  | ok a => exact ends_of_ok (run_lift_eq_ok.2 ⟨a, rfl, rfl⟩) (succeeds a result)
  | error cause => exact ends_of_error rfl (fails cause result)

theorem ends_lift_of_failsBy {x : Except ε α} (fails : FailsBy badly x)
    : Ends (monadLift x) s (fun _ _ => True) badly :=
  ends_lift (fun _ _ => trivial) fails

theorem Ends.failsBy {step : StateT σ (Except ε) α} {well : α → σ → Prop}
    (ends : Ends step s well badly)
    : FailsBy badly (step.run s) := by
  intro cause failed
  rwa [Ends, failed] at ends

/-- A list of steps ends well with what holds for all of it, where each step takes what holds for
the entries before its own to what holds with it; by induction on the list.
-/
theorem ends_forM {f : α → StateT σ (Except ε) PUnit} {xs : List α} {I : Nat → σ → Prop}
    (start : I 0 s)
    (step
      : ∀ i x s,
          xs[i]? = some x → I i s → Ends (f x) s (fun _ s' => I (i + 1) s') badly)
    : Ends (xs.forM f) s (fun _ s' => I xs.length s') badly := by
  induction xs generalizing s I with
  | nil => exact start
  | cons x xs ih =>
      refine ends_bind (step 0 x s rfl start) fun _ s' here => ?_
      exact ih (I := fun i => I (i + 1)) here fun i y s found =>
        step (i + 1) y s (by rwa [List.getElem?_cons_succ])

/-- The same along the entries with their positions. -/
theorem ends_forM_zipIdx {f : α × Nat → StateT σ (Except ε) PUnit} {xs : List α}
    {I : Nat → σ → Prop} (start : I 0 s)
    (step
      : ∀ i x s,
          xs[i]? = some x → I i s → Ends (f (x, i)) s (fun _ s' => I (i + 1) s') badly)
    : Ends (xs.zipIdx.forM f) s (fun _ s' => I xs.length s') badly := by
  rw [← List.length_zipIdx (i := 0)]
  refine ends_forM start fun i x s found => ?_
  rw [List.getElem?_zipIdx] at found
  obtain ⟨y, there, rfl⟩ := Option.map_eq_some_iff.mp found
  rw [Nat.zero_add]
  exact step i y s there

end Ending

-----------------------------------------------------------------------------------------
-- Steps that keep their state when they fail
-----------------------------------------------------------------------------------------

section Keeping

variable {ε σ α β : Type}

/-- The step ends well from one state, with a result and in another state. -/
def Succeeds (step : ExceptT ε (StateM σ) α) (s : σ) (a : α) (s' : σ) : Prop :=
  step.run s = (.ok a, s')

theorem succeeds_of_fst {step : ExceptT ε (StateM σ) α} {s : σ} {a : α}
    (h : (step.run s).1 = .ok a)
    : Succeeds step s a (step.run s).2 :=
  Prod.ext h rfl

/-- A composed step stops at a failure of its first part, with the state that this part left. -/
theorem run_keeping_bind {x : ExceptT ε (StateM σ) α} {f : α → ExceptT ε (StateM σ) β} {s : σ}
    : (x >>= f).run s
      = match x.run s with
        | (.ok a, s') => (f a).run s'
        | (.error error, s') => (.error error, s') := by
  rw [ExceptT.run_bind]
  simp only [bind, StateT.bind]
  rcases x.run s with ⟨result, s'⟩
  cases result <;> rfl

theorem succeeds_bind {x : ExceptT ε (StateM σ) α} {f : α → ExceptT ε (StateM σ) β} {s s'' : σ}
    {b : β}
    : Succeeds (x >>= f) s b s'' ↔ ∃ a s', Succeeds x s a s' ∧ Succeeds (f a) s' b s'' := by
  rw [Succeeds, run_keeping_bind]
  constructor
  · intro h
    rcases here : x.run s with ⟨result, s'⟩
    rw [here] at h
    cases result with
    | ok a => exact ⟨a, s', here, h⟩
    | error error => cases h
  · rintro ⟨a, s', first, second⟩
    rw [Succeeds] at first
    rw [first]
    exact second

theorem succeeds_pure {a b : α} {s s' : σ}
    : Succeeds (pure a : ExceptT ε (StateM σ) α) s b s' ↔ a = b ∧ s = s' := by
  show ((Except.ok a, s) : Except ε α × σ) = _ ↔ _
  simp

theorem not_succeeds_throw {error : ε} {b : α} {s s' : σ}
    : ¬ Succeeds (throw error : ExceptT ε (StateM σ) α) s b s' := by
  intro h
  cases h

theorem succeeds_get {b s s' : σ}
    : Succeeds (get : ExceptT ε (StateM σ) σ) s b s' ↔ s = b ∧ s = s' := by
  show ((Except.ok s, s) : Except ε σ × σ) = _ ↔ _
  simp

theorem succeeds_set {next s s' : σ} {b : PUnit}
    : Succeeds (set next : ExceptT ε (StateM σ) PUnit) s b s' ↔ next = s' := by
  show ((Except.ok ⟨⟩, next) : Except ε PUnit × σ) = _ ↔ _
  simp

theorem succeeds_modify {f : σ → σ} {s s' : σ} {b : PUnit}
    : Succeeds (modify f : ExceptT ε (StateM σ) PUnit) s b s' ↔ f s = s' := by
  show ((Except.ok ⟨⟩, f s) : Except ε PUnit × σ) = _ ↔ _
  simp

/-- An outcome is kept as it is, whether the step ends well or not. -/
theorem succeeds_lift {x : StateM σ α} {b : α} {s s' : σ}
    : Succeeds (ExceptT.lift x : ExceptT ε (StateM σ) α) s b s' ↔ x.run s = (b, s') := by
  show ((fun result => (Except.ok result.1, result.2)) (x.run s) : Except ε α × σ) = _ ↔ _
  rcases x.run s with ⟨result, last⟩
  constructor
  · rintro ⟨⟩
    rfl
  · rintro ⟨⟩
    rfl

/-- All steps of a list succeed one after the other, by induction on the list. -/
theorem mapM_succeeds {f : α → ExceptT ε (StateM σ) β} {xs : List α} {s : σ} {ys : List β}
    {s' : σ}
    : Succeeds (xs.mapM f) s ys s'
      ↔ Threaded (fun x s y s' => Succeeds (f x) s y s') xs s ys s' := by
  induction xs generalizing s ys with
  | nil =>
      simp only [List.mapM_nil, succeeds_pure]
      constructor
      · rintro ⟨rfl, rfl⟩
        exact .nil
      · rintro ⟨⟩
        exact ⟨rfl, rfl⟩
  | cons x xs ih =>
      simp only [List.mapM_cons, succeeds_bind, succeeds_pure]
      constructor
      · rintro ⟨y, middle, head, rest, _, tail, rfl, rfl⟩
        exact .cons head (ih.1 tail)
      · rintro (_ | ⟨head, tail⟩)
        exact ⟨_, _, head, _, _, ih.2 tail, rfl, rfl⟩

theorem forM_succeeds {f : α → ExceptT ε (StateM σ) PUnit} {xs : List α} {s s' : σ}
    : Succeeds (xs.forM f) s ⟨⟩ s' ↔ Chained (fun x s s' => Succeeds (f x) s ⟨⟩ s') xs s s' := by
  induction xs generalizing s with
  | nil =>
      simp only [List.forM, succeeds_pure, true_and]
      constructor
      · rintro rfl
        exact .nil
      · rintro ⟨⟩
        rfl
  | cons x xs ih =>
      simp only [List.forM, succeeds_bind, ih]
      constructor
      · rintro ⟨⟨⟩, middle, head, tail⟩
        exact .cons head tail
      · rintro (_ | ⟨head, tail⟩)
        exact ⟨⟨⟩, _, head, tail⟩

theorem succeeds_ofExcept {x : Except ε α} {b : α} {s s' : σ}
    : Succeeds (MonadExcept.ofExcept x : ExceptT ε (StateM σ) α) s b s'
      ↔ x = .ok b ∧ s = s' := by
  cases x with
  | ok a => simpa [MonadExcept.ofExcept] using succeeds_pure
  | error error =>
      simp only [reduceCtorEq, false_and, iff_false]
      exact not_succeeds_throw

theorem keeping_ofExcept_ok_bind (a : α) (next : α → ExceptT ε (StateM σ) β)
    : MonadExcept.ofExcept (Except.ok a) >>= next = next a :=
  rfl

theorem keeping_ofExcept_map_bind {γ : Type} {x : Except ε α} (change : α → β)
    (next : β → ExceptT ε (StateM σ) γ)
    : MonadExcept.ofExcept (change <$> x) >>= next
      = MonadExcept.ofExcept x >>= fun a => next (change a) := by
  cases x <;> rfl

end Keeping

end SchematicHdl.Outcome
