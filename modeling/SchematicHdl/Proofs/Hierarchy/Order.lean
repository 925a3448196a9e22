import Mathlib.Logic.Relation

/-! The order of a depth-first visit: everything below a number comes before the number itself, and
nothing is entered twice. The order depends on the targets and on what is below each number alone,
so two traversals that visit in this way visit in the same order.
-/

namespace SchematicHdl

/-- Visiting targets one after the other turns a list of visited numbers into a longer one. -/
inductive Visits (below : Nat → List Nat) : List Nat → List Nat → List Nat → Prop
  | nil {done} : Visits below [] done done
  | skip {target targets done last} (seen : target ∈ done)
    (rest : Visits below targets done last)
    : Visits below (target :: targets) done last
  | enter {target targets done middle last} (fresh : target ∉ done)
    (inner : Visits below (below target) done middle)
    (rest : Visits below targets (middle ++ [target]) last)
    : Visits below (target :: targets) done last

/-- Everything below a listed number is listed before it. -/
def ChildrenFirst (below : Nat → List Nat) (order : List Nat) : Prop :=
  ∀ before number after, order = before ++ number :: after → below number ⊆ before

namespace Visits

variable {below : Nat → List Nat} {targets done last : List Nat}

/-- There is one order at most, by induction on the visit. -/
theorem unique {other : List Nat} (visits : Visits below targets done last)
    (again : Visits below targets done other)
    : last = other := by
  induction visits generalizing other with
  | nil =>
      cases again
      rfl
  | skip seen _ ih =>
      cases again with
      | skip _ rest => exact ih rest
      | enter fresh => exact absurd seen fresh
  | enter fresh _ _ innerEq restEq =>
      cases again with
      | skip seen => exact absurd seen fresh
      | enter _ inner rest =>
          obtain rfl := innerEq inner
          exact restEq rest

theorem append {more final : List Nat} (visits : Visits below targets done last)
    (later : Visits below more last final)
    : Visits below (targets ++ more) done final := by
  induction visits with
  | nil => exact later
  | skip seen _ ih => exact .skip seen (ih later)
  | enter fresh inner _ _ ih => exact .enter fresh inner (ih later)

theorem prefix_of (visits : Visits below targets done last) : done <+: last := by
  induction visits with
  | nil => exact List.prefix_refl _
  | skip _ _ ih => exact ih
  | enter _ _ _ inner rest => exact (inner.trans (List.prefix_append _ _)).trans rest

theorem targets_subset (visits : Visits below targets done last) : targets ⊆ last := by
  induction visits with
  | nil => exact List.nil_subset _
  | skip seen rest ih => exact List.cons_subset.mpr ⟨rest.prefix_of.subset seen, ih⟩
  | enter _ _ rest _ ih =>
      exact List.cons_subset.mpr ⟨rest.prefix_of.subset (by simp), ih⟩

/-- Whatever is visited lies below a target, or was visited before. -/
theorem reachable (visits : Visits below targets done last) {number : Nat}
    (member : number ∈ last)
    : number ∈ done
      ∨ ∃ target ∈ targets, Relation.ReflTransGen (fun a b => b ∈ below a) target number := by
  induction visits with
  | nil => exact .inl member
  | skip _ _ ih =>
      refine (ih member).imp_right fun ⟨target, listed, path⟩ => ?_
      exact ⟨target, List.mem_cons_of_mem _ listed, path⟩
  | enter _ _ _ inner rest =>
      rcases rest member with earlier | ⟨target, listed, path⟩
      · rcases List.mem_append.mp earlier with within | here
        · refine (inner within).imp_right fun ⟨child, listed, path⟩ => ?_
          exact ⟨_, List.mem_cons_self, .head listed path⟩
        · obtain rfl := List.mem_singleton.mp here
          exact .inr ⟨_, List.mem_cons_self, .refl⟩
      · exact .inr ⟨target, List.mem_cons_of_mem _ listed, path⟩

/-- A visit keeps everything below a number before it, by induction on the visit. -/
theorem childrenFirst (visits : Visits below targets done last)
    (first : ChildrenFirst below done)
    : ChildrenFirst below last := by
  induction visits with
  | nil => exact first
  | skip _ _ ih => exact ih first
  | enter _ inner _ innerFirst restFirst =>
      refine restFirst fun before number after split => ?_
      rcases List.eq_nil_or_concat after with rfl | ⟨others, final, rfl⟩
      · obtain ⟨rfl, same⟩ := List.append_inj' split rfl
        obtain ⟨rfl, -⟩ := List.cons.inj same
        exact inner.targets_subset
      · rw [List.concat_eq_append, ← List.cons_append, ← List.append_assoc] at split
        obtain ⟨rfl, -⟩ := List.append_inj' split rfl
        exact innerFirst first before number others rfl

end Visits

theorem ChildrenFirst.nil (below : Nat → List Nat) : ChildrenFirst below [] := by
  intro before number after split
  simp at split

/-- A list with children first holds everything below its members. -/
theorem ChildrenFirst.closed {below : Nat → List Nat} {order : List Nat}
    (first : ChildrenFirst below order) {number other : Nat} (member : number ∈ order)
    (path : Relation.ReflTransGen (fun a b => b ∈ below a) number other)
    : other ∈ order := by
  induction path with
  | refl => exact member
  | tail _ step ih =>
      obtain ⟨before, after, rfl⟩ := List.append_of_mem ih
      exact List.mem_append_left _ (first before _ after rfl step)

/-- A target that was not visited before is visited last. -/
theorem Visits.getLast?_eq {below : Nat → List Nat} {target : Nat} {done last : List Nat}
    (visits : Visits below [target] done last) (fresh : target ∉ done)
    : last.getLast? = some target := by
  cases visits with
  | skip seen => exact absurd seen fresh
  | enter _ _ rest =>
      cases rest
      simp

/-- Whatever lies below a member of a list with children first stands before it. -/
theorem ChildrenFirst.idxOf_lt {below : Nat → List Nat} {order : List Nat}
    (first : ChildrenFirst below order) {number other : Nat} (member : number ∈ order)
    (path : Relation.TransGen (fun a b => b ∈ below a) number other)
    : order.idxOf other < order.idxOf number := by
  have step {a b : Nat} (listed : a ∈ order) (under : b ∈ below a)
      : order.idxOf b < order.idxOf a := by
    obtain ⟨before, after, rfl, absent⟩ := List.eq_append_cons_of_mem listed
    have earlier := first before a after rfl under
    rw [List.idxOf_append, if_pos earlier, List.idxOf_append, if_neg absent, List.idxOf_cons_self,
      Nat.zero_add]
    exact List.idxOf_lt_length_of_mem earlier
  induction path with
  | single under => exact step member under
  | tail front under ih =>
      exact Nat.lt_trans (step (first.closed member front.to_reflTransGen) under) ih

/-- Nothing in a list with children first lies below itself. -/
theorem ChildrenFirst.acyclic {below : Nat → List Nat} {order : List Nat}
    (first : ChildrenFirst below order) {number : Nat} (member : number ∈ order)
    : ¬ Relation.TransGen (fun a b => b ∈ below a) number number := by
  intro cycle
  exact Nat.lt_irrefl _ (first.idxOf_lt member cycle)

/-- A visit from one target visits just what lies below it. -/
theorem Visits.mem_iff_reachable {below : Nat → List Nat} {target number : Nat} {last : List Nat}
    (visits : Visits below [target] [] last)
    : number ∈ last ↔ Relation.ReflTransGen (fun a b => b ∈ below a) target number := by
  constructor
  · intro member
    rcases visits.reachable member with none | ⟨start, listed, path⟩
    · cases none
    · exact List.mem_singleton.mp listed ▸ path
  · intro path
    have first := visits.childrenFirst (.nil below)
    exact first.closed (visits.targets_subset List.mem_cons_self) path

end SchematicHdl
