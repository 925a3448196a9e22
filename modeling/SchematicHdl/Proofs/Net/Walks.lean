import Mathlib.Data.List.Induction
import Mathlib.Order.Bounds.Defs
import SchematicHdl.Proofs.Net.Partition

/-! Calls on a partition, write by write. A walk goes on as long as there is a link to follow,
without knowing that links lead downward; each of its turns shortens one link. After every single
write, also in the middle of a call, no link leads upward, the classes are those that the complete
unions generate, and a walk from any number would end at the least member of its class.
-/

namespace SchematicHdl.Net.Partition

-----------------------------------------------------------------------------------------
-- Turns of a walk
-----------------------------------------------------------------------------------------

/-- One turn of a walk: the link is shortened to skip a step and then followed. A number without a
link ends the walk.
-/
def turn? (forest : Partition) (x : Nat) : Option (Partition × Nat) :=
  if forest.up x = x then none
  else
    let shortened := forest.link x (forest.up (forest.up x))
    some (shortened, shortened.up x)

/-- Turns lead from a number to the end of the walk, with the forest that they leave. -/
inductive Walks : Partition → Nat → Partition × Nat → Prop
  | ends {forest : Partition} {x : Nat} (ended : forest.turn? x = none)
    : Walks forest x (forest, x)
  | turns {forest shortened : Partition} {x next : Nat} {result : Partition × Nat}
    (turn : forest.turn? x = some (shortened, next)) (later : Walks shortened next result)
    : Walks forest x result

theorem up_eq_of_turn?_eq_none {forest : Partition} {x : Nat} (ended : forest.turn? x = none)
    : forest.up x = x := by
  unfold turn? at ended
  split at ended
  · assumption
  · cases ended

/-- What a turn leaves behind. -/
structure TurnSpec (forest : Partition) (x : Nat) (shortened : Partition) (next : Nat) : Prop where
  lower : next < x
  descending : shortened.Descending
  size_eq : shortened.parent.size = forest.parent.size
  classOf_eq : ∀ y, shortened.classOf y = forest.classOf y
  find_eq : shortened.find next = forest.find x

/-- A turn goes down and changes no class, because the new link leads to a member of the same class
that lies below.
-/
theorem Descending.turn_spec {forest shortened : Partition} (descending : forest.Descending)
    {x next : Nat} (inside : x < forest.parent.size)
    (turn : forest.turn? x = some (shortened, next))
    : TurnSpec forest x shortened next := by
  unfold turn? at turn
  split at turn
  · cases turn
  next linked =>
  obtain ⟨rfl, rfl⟩ := Prod.mk.inj (Option.some.inj turn)
  have below : forest.up (forest.up x) < x := by
    have first := descending x
    have second := descending (forest.up x)
    omega
  have lands
      : (forest.link x (forest.up (forest.up x))).up x = forest.up (forest.up x) := by
    rw [up_link forest _ x inside, if_pos rfl]
  have same : forest.classOf (forest.up (forest.up x)) = forest.classOf x := by
    rw [descending.classOf_up, descending.classOf_up]
  refine {
    lower := by rwa [lands]
    descending := descending.link (Nat.le_of_lt below)
    size_eq := size_link forest x _
    classOf_eq :=
      descending.classOf_link (Nat.le_of_lt below) same
        fun fixed => absurd fixed (Nat.ne_of_lt below)
    find_eq := ?_
  }
  rw [lands]
  conv => rhs; rw [find]
  rw [if_pos below]

/-- Where a walk ends, it has found the representative. -/
theorem find_of_turn?_eq_none {forest : Partition} {x : Nat} (ended : forest.turn? x = none)
    : forest.find x = (forest, x) := by
  have root := up_eq_of_turn?_eq_none ended
  rw [find]
  simp [root]

/-- A walk ends, by strong induction on the number at which it stands: every turn leads to a lesser
one.
-/
theorem Descending.walks {forest : Partition} (descending : forest.Descending) {x : Nat}
    (inside : x < forest.parent.size)
    : Walks forest x (forest.find x) := by
  induction x using Nat.strongRecOn generalizing forest with
  | _ x ih =>
      cases turn : forest.turn? x with
      | none =>
          rw [find_of_turn?_eq_none turn]
          exact .ends turn
      | some result =>
          obtain ⟨shortened, next⟩ := result
          have turned := descending.turn_spec inside turn
          refine .turns turn ?_
          rw [← turned.find_eq]
          refine ih next turned.lower turned.descending ?_
          have lower := turned.lower
          rw [turned.size_eq]
          omega

-----------------------------------------------------------------------------------------
-- Calls
-----------------------------------------------------------------------------------------

/-- What is asked of a partition. -/
inductive Call where
  | find (x : Nat)
  | union (a b : Nat)
deriving DecidableEq, Repr

namespace Call

/-- The call names numbers below the size only. -/
def Inside (size : Nat) : Call → Prop
  | .find x => x < size
  | .union a b => a < size ∧ b < size

instance (size : Nat) (call : Call) : Decidable (call.Inside size) :=
  match call with
  | .find x => inferInstanceAs (Decidable (x < size))
  | .union a b => inferInstanceAs (Decidable (a < size ∧ b < size))

/-- The partition after a call. -/
def perform (partition : Partition) : Call → Partition
  | .find x => (partition.find x).1
  | .union a b => partition.union a b

end Call

/-- The partition after calls on a discrete one. -/
def performed (size : Nat) (calls : List Call) : Partition :=
  calls.foldl Call.perform (discrete size)

/-- One of the calls unites the two numbers. -/
def United (calls : List Call) (x y : Nat) : Prop := .union x y ∈ calls

/-- Two representatives become one class under the lesser of them. -/
def merge (partition : Partition) (a b : Nat) : Partition :=
  if a < b then partition.link b a
  else if b < a then partition.link a b
  else partition

/-- A union makes two walks and merges what they find. -/
theorem union_eq_merge (partition : Partition) (a b : Nat)
    : partition.union a b
      = ((partition.find a).1.find b).1.merge (partition.find a).2
          ((partition.find a).1.find b).2 :=
  rfl

theorem performed_concat (size : Nat) (calls : List Call) (call : Call)
    : performed size (calls ++ [call]) = call.perform (performed size calls) := by
  simp [performed]

/-- A forest with the same classes and no link that leads upward stands for the same equivalence. -/
theorem Represents.of_classOf_eq {α : Type} {partition forest : Partition} {member : α → Prop}
    {number : α → Nat} {pairs : α → α → Prop}
    (represents : partition.Represents member number pairs) (descending : forest.Descending)
    (size_eq : forest.parent.size = partition.parent.size)
    (classOf_eq : ∀ y, forest.classOf y = partition.classOf y)
    : forest.Represents member number pairs where
  descending
  inside := fun x memberX => size_eq ▸ represents.inside x memberX
  closed := represents.closed
  same_iff := fun x y memberX memberY => by
    rw [classOf_eq, classOf_eq]
    exact represents.same_iff x y memberX memberY

/-- Calls make the equivalence that their unions generate, by induction on the calls from the end.
-/
theorem performed_represents {size : Nat} {calls : List Call}
    (inside : ∀ call ∈ calls, call.Inside size)
    : (performed size calls).Represents (· < size) id (United calls) := by
  induction calls using List.reverseRecOn with
  | nil =>
      have alone : (Partition.discrete size).Represents (· < size) id fun _ _ => False :=
        Represents.discrete size (fun _ below => below) fun _ _ _ _ same => same
      exact alone.congr fun x y => by simp [United]
  | append_singleton calls call ih =>
      obtain ⟨earlier, last⟩ := List.forall_mem_append.mp inside
      have before := ih earlier
      have here := List.forall_mem_singleton.mp last
      rw [performed_concat]
      cases call with
      | find x =>
          have found := before.descending.find_spec x
          refine (before.of_classOf_eq found.descending found.size_eq found.classOf_eq).congr ?_
          exact fun a b => by simp [United]
      | union a b =>
          exact (before.union here.1 here.2).congr fun x y => by simp [United]

/-- The representative is the least member of its class. -/
theorem Represents.isLeast {size : Nat} {forest : Partition} {pairs : Nat → Nat → Prop}
    (represents : forest.Represents (· < size) id pairs) {x : Nat} (inside : x < size)
    : IsLeast { y | Relation.EqvGen pairs x y } (forest.find x).2 := by
  rw [(represents.descending.find_spec x).representative]
  have low : forest.classOf x < size := Nat.lt_of_le_of_lt (forest.classOf_le x) inside
  constructor
  · have same := (represents.same_iff x (forest.classOf x) inside low).mp
    exact same (represents.descending.classOf_classOf x).symm
  · intro y chain
    have member : y < size :=
      (eqvGen_value represents.closed (fun _ => ()) (fun _ _ _ => rfl) chain).1.mp inside
    have same := (represents.same_iff x y inside member).mpr chain
    calc
      forest.classOf x = forest.classOf y := same
      _ ≤ y := forest.classOf_le y

-----------------------------------------------------------------------------------------
-- Forests in the course of calls
-----------------------------------------------------------------------------------------

/-- What a walk is made for. -/
inductive Errand where
  | find (start : Nat)
  /-- The representative of the first number of a union. -/
  | first (a b : Nat)
  /-- The representative of the second number; that of the first one is known. -/
  | second (a b root : Nat)
deriving DecidableEq, Repr

/-- How far a call has come. -/
inductive Stage where
  /-- No call is under way; the last one has given this answer. -/
  | idle (answer? : Option Nat)
  | walking (errand : Errand) (x : Nat)
deriving DecidableEq, Repr

/-- A call starts with a walk from its first number. -/
def Call.start : Call → Stage
  | .find x => .walking (.find x) x
  | .union a b => .walking (.first a b) a

/-- A forest occurs in the course of calls on a discrete partition: after the complete ones, with
the next call at the given stage. Every write makes a forest of its own.
-/
inductive Occurs (size : Nat) : List Call → Stage → Partition → Prop
  | discrete : Occurs size [] (.idle none) (discrete size)
  | begins {calls answer? forest} (occurs : Occurs size calls (.idle answer?) forest) (call : Call)
    (inside : call.Inside size)
    : Occurs size calls call.start forest
  | turns {calls errand x forest shortened next}
    (occurs : Occurs size calls (.walking errand x) forest)
    (turn : forest.turn? x = some (shortened, next))
    : Occurs size calls (.walking errand next) shortened
  | answers {calls start x forest} (occurs : Occurs size calls (.walking (.find start) x) forest)
    (ended : forest.turn? x = none)
    : Occurs size (calls ++ [.find start]) (.idle (some x)) forest
  | changes {calls a b x forest} (occurs : Occurs size calls (.walking (.first a b) x) forest)
    (ended : forest.turn? x = none)
    : Occurs size calls (.walking (.second a b x) b) forest
  | unites {calls a b root x forest}
    (occurs : Occurs size calls (.walking (.second a b root) x) forest)
    (ended : forest.turn? x = none)
    : Occurs size (calls ++ [.union a b]) (.idle none) (forest.merge root x)

namespace Errand

/-- The call that the walk is a part of. -/
def call : Errand → Call
  | .find start => .find start
  | .first a b => .union a b
  | .second a b _ => .union a b

/-- What the whole walk comes to, on the partition before the call. -/
def goal (before : Partition) : Errand → Partition × Nat
  | .find start => before.find start
  | .first a _ => before.find a
  | .second a b _ => (before.find a).1.find b

/-- What is known from an earlier walk is right. -/
def Knows (before : Partition) : Errand → Prop
  | .find _ => True
  | .first _ _ => True
  | .second a _ root => root = (before.find a).2

end Errand

/-- What a stage has to do with the partition before the call: a walk under way still comes to its
goal.
-/
inductive Stage.Leads (size : Nat) (calls : List Call) (forest : Partition) : Stage → Prop
  | idle {answer?} (same : forest = performed size calls)
    (answer
      : ∀ before start,
          calls = before ++ [.find start]
          → answer? = some ((performed size before).find start).2)
    : Leads size calls forest (.idle answer?)
  | walking {errand x} (inside : errand.call.Inside size) (below : x < size)
    (knows : errand.Knows (performed size calls))
    (goal : forest.find x = errand.goal (performed size calls))
    : Leads size calls forest (.walking errand x)

/-- What holds of every forest that occurs, in terms of the complete calls. -/
structure Follows (size : Nat) (calls : List Call) (stage : Stage) (forest : Partition) : Prop where
  inside : ∀ call ∈ calls, call.Inside size
  descending : forest.Descending
  size_eq : forest.parent.size = (performed size calls).parent.size
  classOf_eq : ∀ y, forest.classOf y = (performed size calls).classOf y
  leads : stage.Leads size calls forest

variable {size : Nat} {calls : List Call} {stage : Stage} {forest : Partition}

theorem Follows.represents (follows : Follows size calls stage forest)
    : forest.Represents (· < size) id (United calls) :=
  (performed_represents follows.inside).of_classOf_eq follows.descending follows.size_eq
    follows.classOf_eq

/-- Between two calls the forest is the partition that the calls make. -/
theorem Follows.of_performed (inside : ∀ call ∈ calls, call.Inside size) {answer? : Option Nat}
    (answer
      : ∀ before start,
          calls = before ++ [.find start]
          → answer? = some ((performed size before).find start).2)
    : Follows size calls (.idle answer?) (performed size calls) where
  inside
  descending := (performed_represents inside).descending
  size_eq := rfl
  classOf_eq := fun _ => rfl
  leads := .idle rfl answer

theorem Follows.begins {answer? : Option Nat} {call : Call}
    (follows : Follows size calls (.idle answer?) forest) (inside : call.Inside size)
    : Follows size calls call.start forest := by
  have ⟨earlier, descending, size_eq, classOf_eq, leads⟩ := follows
  obtain ⟨same, -⟩ := leads
  refine ⟨earlier, descending, size_eq, classOf_eq, ?_⟩
  cases call with
  | find x => exact .walking inside inside trivial (by rw [same]; rfl)
  | union a b => exact .walking inside inside.1 trivial (by rw [same]; rfl)

theorem Follows.turns {errand : Errand} {x next : Nat} {shortened : Partition}
    (follows : Follows size calls (.walking errand x) forest)
    (turn : forest.turn? x = some (shortened, next))
    : Follows size calls (.walking errand next) shortened := by
  have represents := follows.represents
  have ⟨earlier, descending, size_eq, classOf_eq, leads⟩ := follows
  obtain - | ⟨inside, below, knows, goal⟩ := leads
  have turned := descending.turn_spec (represents.inside x below) turn
  exact {
    inside := earlier
    descending := turned.descending
    size_eq := turned.size_eq.trans size_eq
    classOf_eq := fun y => (turned.classOf_eq y).trans (classOf_eq y)
    leads :=
      .walking inside (Nat.lt_trans turned.lower below) knows (turned.find_eq.trans goal)
  }

theorem Follows.answers {start x : Nat}
    (follows : Follows size calls (.walking (.find start) x) forest)
    (ended : forest.turn? x = none)
    : Follows size (calls ++ [.find start]) (.idle (some x)) forest := by
  have ⟨earlier, _, _, _, leads⟩ := follows
  obtain - | ⟨inside, -, -, goal⟩ := leads
  rw [find_of_turn?_eq_none ended] at goal
  have made : performed size (calls ++ [.find start]) = forest := by
    rw [performed_concat]
    exact (congrArg Prod.fst goal).symm
  rw [← made]
  have allInside := List.forall_mem_append.mpr ⟨earlier, List.forall_mem_singleton.mpr inside⟩
  refine .of_performed allInside ?_
  intro before start' same
  obtain ⟨rfl, last⟩ := List.append_inj' same rfl
  obtain ⟨rfl⟩ := Call.find.inj (List.head_eq_of_cons_eq last)
  exact congrArg some (congrArg Prod.snd goal)

theorem Follows.changes {a b x : Nat}
    (follows : Follows size calls (.walking (.first a b) x) forest)
    (ended : forest.turn? x = none)
    : Follows size calls (.walking (.second a b x) b) forest := by
  have ⟨earlier, descending, size_eq, classOf_eq, leads⟩ := follows
  obtain - | ⟨inside, -, -, goal⟩ := leads
  rw [find_of_turn?_eq_none ended] at goal
  refine ⟨earlier, descending, size_eq, classOf_eq, .walking inside inside.2 ?_ ?_⟩
  · exact congrArg Prod.snd goal
  · exact congrArg (fun found => found.1.find b) goal

theorem Follows.unites {a b root x : Nat}
    (follows : Follows size calls (.walking (.second a b root) x) forest)
    (ended : forest.turn? x = none)
    : Follows size (calls ++ [.union a b]) (.idle none) (forest.merge root x) := by
  have ⟨earlier, _, _, _, leads⟩ := follows
  obtain - | ⟨inside, -, knows, goal⟩ := leads
  rw [find_of_turn?_eq_none ended] at goal
  have made : performed size (calls ++ [.union a b]) = forest.merge root x := by
    rw [performed_concat]
    show (performed size calls).union a b = _
    obtain ⟨rfl, rfl⟩ := Prod.mk.inj goal
    rw [union_eq_merge, ← (show root = _ from knows)]
  rw [← made]
  have allInside := List.forall_mem_append.mpr ⟨earlier, List.forall_mem_singleton.mpr inside⟩
  refine .of_performed allInside ?_
  intro before start same
  cases List.head_eq_of_cons_eq (List.append_inj' same rfl).2

/-- Every forest that occurs follows the complete calls, by induction on how it comes about. -/
theorem Occurs.follows (occurs : Occurs size calls stage forest)
    : Follows size calls stage forest := by
  induction occurs with
  | discrete =>
      have idle : Follows size [] (.idle none) (performed size []) :=
        .of_performed (List.forall_mem_nil _) (by simp)
      exact idle
  | begins _ call inside ih => exact ih.begins inside
  | turns _ turn ih => exact ih.turns turn
  | answers _ ended ih => exact ih.answers ended
  | changes _ ended ih => exact ih.changes ended
  | unites _ ended ih => exact ih.unites ended

-----------------------------------------------------------------------------------------
-- Least members
-----------------------------------------------------------------------------------------

/-- The forest stands for the equivalence that the complete unions generate, and its classes are
known by their least members.
-/
structure KeepsLeast (size : Nat) (calls : List Call) (stage : Stage) (forest : Partition)
    : Prop where
  up_le : ∀ x, forest.up x ≤ x
  same_iff
    : ∀ x < size,
        ∀ y < size,
          forest.classOf x = forest.classOf y ↔ Relation.EqvGen (United calls) x y
  /-- A walk ends, wherever it starts. -/
  walks : ∀ x < size, Walks forest x (forest.find x)
  least : ∀ x < size, IsLeast { y | Relation.EqvGen (United calls) x y } (forest.find x).2
  /-- Shortening a link changes no class. -/
  shortens
    : ∀ x < size,
        ∀ shortened next,
          forest.turn? x = some (shortened, next) → ∀ y, shortened.classOf y = forest.classOf y
  /-- A walk under way stands at a number inside the forest. -/
  inside : ∀ errand x, stage = .walking errand x → x < forest.parent.size
  /-- Between two calls the forest is what the calls make of a discrete partition. -/
  performed_eq : ∀ answer?, stage = .idle answer? → forest = performed size calls
  /-- A walk that was asked for has given the least member of the class that it started in. -/
  answer
    : ∀ before start answer?,
        calls = before ++ [.find start]
        → stage = .idle answer?
        → ∃ r, answer? = some r ∧ IsLeast { y | Relation.EqvGen (United calls) start y } r

/-- A walk that only asks leaves the equivalence as it is. -/
theorem united_concat_find (before : List Call) (start : Nat)
    : United (before ++ [.find start]) = United before := by
  funext x y
  simp [United]

/-- In the course of any calls, after each of their writes, every class is represented by its least
member: turns of walks keep the classes, and a union merges two of them.
-/
theorem Occurs.keepsLeast (occurs : Occurs size calls stage forest)
    : KeepsLeast size calls stage forest := by
  have follows := occurs.follows
  have represents := follows.represents
  have inForest {x : Nat} (below : x < size) : x < forest.parent.size :=
    represents.inside x below
  exact {
    up_le := represents.descending
    same_iff := fun x belowX y belowY => represents.same_iff x y belowX belowY
    walks := fun _ below => represents.descending.walks (inForest below)
    least := fun _ below => represents.isLeast below
    shortens := fun _ below _ _ turn =>
      (represents.descending.turn_spec (inForest below) turn).classOf_eq
    inside := by
      rintro errand x rfl
      obtain - | ⟨-, below, -, -⟩ := follows.leads
      exact inForest below
    performed_eq := by
      rintro answer? rfl
      obtain ⟨same, -⟩ := follows.leads
      exact same
    answer := by
      rintro before start answer? rfl rfl
      obtain ⟨-, answer⟩ := follows.leads
      obtain ⟨earlier, last⟩ := List.forall_mem_append.mp follows.inside
      have below : start < size := last (.find start) (List.mem_singleton_self _)
      refine ⟨_, answer before start rfl, ?_⟩
      rw [united_concat_find]
      exact (performed_represents earlier).isLeast below
  }

/-- A union of two representatives makes no turns. -/
theorem Occurs.unite {answer? : Option Nat} {a b : Nat}
    (occurs : Occurs size calls (.idle answer?) forest) (inside : (Call.union a b).Inside size)
    (rootA : forest.turn? a = none) (rootB : forest.turn? b = none)
    : Occurs size (calls ++ [.union a b]) (.idle none) (forest.merge a b) :=
  .unites (.changes (.begins occurs (.union a b) inside) rootA) rootB

/-- A walk from 3 has shortened its first link, which now skips 2. -/
theorem shortenedOnce_keepsLeast
    : Occurs 4 [.union 2 3, .union 1 2, .union 0 1] (.walking (.find 3) 1) ⟨#[0, 0, 1, 1]⟩
      ∧ KeepsLeast 4 [.union 2 3, .union 1 2, .union 0 1] (.walking (.find 3) 1)
          ⟨#[0, 0, 1, 1]⟩ := by
  have first : Occurs 4 [.union 2 3] (.idle none) ⟨#[0, 1, 2, 2]⟩ :=
    Occurs.discrete.unite (by decide) (by decide) (by decide)
  have second : Occurs 4 [.union 2 3, .union 1 2] (.idle none) ⟨#[0, 1, 1, 2]⟩ :=
    first.unite (by decide) (by decide) (by decide)
  have third
      : Occurs 4 [.union 2 3, .union 1 2, .union 0 1] (.idle none) ⟨#[0, 0, 1, 2]⟩ :=
    second.unite (by decide) (by decide) (by decide)
  have turned
      : Occurs 4 [.union 2 3, .union 1 2, .union 0 1] (.walking (.find 3) 1)
          ⟨#[0, 0, 1, 1]⟩ :=
    .turns (third.begins (.find 3) (by decide)) rfl
  exact ⟨turned, turned.keepsLeast⟩

end SchematicHdl.Net.Partition
