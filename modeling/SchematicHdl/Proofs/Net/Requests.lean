import SchematicHdl.Proofs.Net.Canonical

/-! What a draft remembers of the calls made on it. A call that fails changes nothing, and of the
calls that succeed only the two equivalences that they generate are kept, on wires and on wire bits:
a class is known by its least member, whatever the order of the calls. Hence the table of a circuit
is a function of its connectivity, with nets numbered by their least wires and with the most
preferred place of a class as its canonical point.
-/

namespace SchematicHdl.Net

-----------------------------------------------------------------------------------------
-- Requests
-----------------------------------------------------------------------------------------

/-- A call on a draft: two wires to join or two wire bits to splice. -/
inductive Request
  | join (a b : Nat)
  | splice (a b : WireBit)
deriving DecidableEq, Repr

namespace Request

/-- The call itself. It fails on wires of different widths and outside the circuit. -/
def apply (request : Request) (draft : Draft) : Except GenerationError Draft :=
  match request with
  | .join a b => draft.join a b
  | .splice a b => draft.splice a b

/-- The request puts two equally wide wires of the circuit into one net. -/
inductive Joins (widths : List Nat) : Request → Nat → Nat → Prop
  | join {a b width} (first : widths[a]? = some width) (second : widths[b]? = some width)
    : Joins widths (.join a b) a b

/-- The request puts two wire bits of the circuit into one class: it splices them, or it joins
their wires and they lie at the same place.
-/
inductive Ties (widths : List Nat) : Request → WireBit → WireBit → Prop
  | join {a b width bit} (first : widths[a]? = some width) (second : widths[b]? = some width)
    (lower : bit < width)
    : Ties widths (.join a b) ⟨a, bit⟩ ⟨b, bit⟩
  | splice {a b} (first : HasBit widths a) (second : HasBit widths b)
    : Ties widths (.splice a b) a b

end Request

/-- The equivalence on wires that some requests generate. -/
def Joined (widths : List Nat) (requests : List Request) : Nat → Nat → Prop :=
  Relation.EqvGen (fun a b => ∃ request ∈ requests, request.Joins widths a b)

/-- The equivalence on wire bits that some requests generate. -/
def Connected (widths : List Nat) (requests : List Request) : WireBit → WireBit → Prop :=
  Relation.EqvGen (fun a b => ∃ request ∈ requests, request.Ties widths a b)

namespace Draft

/-- The draft after a call. A failing call leaves it as it is. -/
def attempt (draft : Draft) (request : Request) : Draft :=
  match request.apply draft with
  | .ok next => next
  | .error _ => draft

/-- The draft of a circuit after some calls. -/
def connect (scope : String) (widths : List Nat) (requests : List Request) : Draft :=
  requests.foldl attempt (ofWidths scope widths)

variable {draft : Draft} {widths : List Nat} {joins : List (Nat × Nat)}
  {splices : List (WireBit × WireBit)} {requests : List Request}

theorem scope_attempt (draft : Draft) (request : Request)
    : (draft.attempt request).scope = draft.scope := by
  cases request with
  | join a b =>
      cases made : draft.join a b with
      | ok next =>
          obtain ⟨width, -, -, rfl⟩ := join_eq_ok.1 made
          simp [attempt, Request.apply, made]
      | error error => simp [attempt, Request.apply, made]
  | splice a b =>
      cases made : draft.splice a b with
      | ok next =>
          obtain ⟨-, -, rfl⟩ := splice_eq_ok.1 made
          simp [attempt, Request.apply, made]
      | error error => simp [attempt, Request.apply, made]

theorem connect_concat (scope : String) (widths : List Nat) (requests : List Request)
    (last : Request)
    : connect scope widths (requests ++ [last])
      = (connect scope widths requests).attempt last := by
  simp [connect]

theorem scope_connect (scope : String) (widths : List Nat) (requests : List Request)
    : (connect scope widths requests).scope = scope := by
  induction requests using List.reverseRecOn with
  | nil => rfl
  | append_singleton requests last ih => rw [connect_concat, scope_attempt, ih]

-----------------------------------------------------------------------------------------
-- What is collected
-----------------------------------------------------------------------------------------

/-- The draft has collected just those joins and splices of the requests that can be made. -/
structure Answers (draft : Draft) (widths : List Nat) (requests : List Request)
    (joins : List (Nat × Nat)) (splices : List (WireBit × WireBit))
    : Prop where
  collected : draft.Collected widths joins splices
  joins_iff : ∀ a b, (a, b) ∈ joins ↔ ∃ request ∈ requests, request.Joins widths a b
  splices_iff
    : ∀ a b,
        (a, b) ∈ splices
        ↔ Request.splice a b ∈ requests ∧ HasBit widths a ∧ HasBit widths b

theorem Answers.tied_iff (answers : draft.Answers widths requests joins splices) (a b : WireBit)
    : Tied widths joins splices a b ↔ ∃ request ∈ requests, request.Ties widths a b := by
  constructor
  · intro tied
    cases tied with
    | join joined found lower =>
        obtain ⟨request, member, joined⟩ := (answers.joins_iff _ _).1 joined
        cases joined with
        | join first second =>
            obtain rfl := Option.some.inj (first.symm.trans found)
            exact ⟨_, member, .join first second lower⟩
    | splice spliced =>
        obtain ⟨member, first, second⟩ := (answers.splices_iff _ _).1 spliced
        exact ⟨_, member, .splice first second⟩
  · rintro ⟨request, member, ties⟩
    cases ties with
    | join first second lower =>
        exact .join ((answers.joins_iff _ _).2 ⟨_, member, .join first second⟩) first lower
    | splice first second =>
        exact .splice ((answers.splices_iff _ _).2 ⟨member, first, second⟩)

/-- One more request either does what is asked of the requests or leaves it to the earlier ones. -/
theorem exists_mem_concat {requests : List Request} {last : Request} {P : Request → Prop}
    : (∃ request ∈ requests ++ [last], P request)
      ↔ (∃ request ∈ requests, P request) ∨ P last := by
  simp [or_and_right, exists_or]

/-- A join is collected when its wires are equally wide, and otherwise nothing changes. -/
theorem Answers.join (answers : draft.Answers widths requests joins splices) (a b : Nat)
    : ∃ joins,
        (draft.attempt (.join a b)).Answers widths (requests ++ [.join a b]) joins splices := by
  have splicesKept (x y : WireBit)
      : (x, y) ∈ splices
        ↔ Request.splice x y ∈ requests ++ [.join a b] ∧ HasBit widths x ∧ HasBit widths y := by
    simp [answers.splices_iff]
  cases made : draft.join a b with
  | ok next =>
      obtain ⟨width, first, second, -⟩ := join_eq_ok.1 made
      rw [answers.collected.widths_eq] at first second
      have reached : draft.attempt (.join a b) = next := by simp [attempt, Request.apply, made]
      refine ⟨joins ++ [(a, b)], reached ▸ answers.collected.join made, ?_, splicesKept⟩
      intro x y
      rw [exists_mem_concat, List.mem_append, List.mem_singleton]
      refine or_congr (answers.joins_iff x y) ⟨?_, ?_⟩
      · rintro ⟨⟩
        exact .join first second
      · rintro ⟨⟩
        rfl
  | error error =>
      have kept : draft.attempt (.join a b) = draft := by simp [attempt, Request.apply, made]
      refine ⟨joins, kept.symm ▸ answers.collected, fun x y => ?_, splicesKept⟩
      -- a join of equally wide wires does not fail
      have idle : ¬ (Request.join a b).Joins widths x y := by
        rintro ⟨first, second⟩
        rw [← answers.collected.widths_eq] at first second
        rw [join_eq_ok.2 ⟨_, first, second, rfl⟩] at made
        cases made
      rw [exists_mem_concat, answers.joins_iff, or_iff_left idle]

/-- A splice is collected when the circuit has both bits, and otherwise nothing changes. -/
theorem Answers.splice (answers : draft.Answers widths requests joins splices) (a b : WireBit)
    : ∃ splices,
        (draft.attempt (.splice a b)).Answers widths (requests ++ [.splice a b]) joins
          splices := by
  have joinsKept (x y : Nat)
      : (x, y) ∈ joins ↔ ∃ request ∈ requests ++ [.splice a b], request.Joins widths x y := by
    have idle : ¬ (Request.splice a b).Joins widths x y := nofun
    rw [exists_mem_concat, answers.joins_iff, or_iff_left idle]
  cases made : draft.splice a b with
  | ok next =>
      obtain ⟨first, second, -⟩ := splice_eq_ok.1 made
      rw [answers.collected.widths_eq] at first second
      have reached : draft.attempt (.splice a b) = next := by simp [attempt, Request.apply, made]
      refine ⟨splices ++ [(a, b)], reached ▸ answers.collected.splice made, joinsKept, ?_⟩
      intro x y
      simp only [List.mem_append, List.mem_singleton, Prod.mk.injEq, Request.splice.injEq,
        answers.splices_iff]
      constructor
      · rintro (⟨member, has⟩ | ⟨rfl, rfl⟩)
        · exact ⟨Or.inl member, has⟩
        · exact ⟨Or.inr ⟨rfl, rfl⟩, first, second⟩
      · rintro ⟨old | new, has⟩
        · exact Or.inl ⟨old, has⟩
        · exact Or.inr new
  | error error =>
      have kept : draft.attempt (.splice a b) = draft := by simp [attempt, Request.apply, made]
      refine ⟨splices, kept.symm ▸ answers.collected, joinsKept, fun x y => ?_⟩
      simp only [List.mem_append, List.mem_singleton, Request.splice.injEq, answers.splices_iff]
      constructor
      · rintro ⟨member, has⟩
        exact ⟨Or.inl member, has⟩
      · rintro ⟨old | ⟨rfl, rfl⟩, first, second⟩
        · exact ⟨old, first, second⟩
        · -- a splice of two bits of the circuit does not fail
          rw [← answers.collected.widths_eq] at first second
          rw [splice_eq_ok.2 ⟨first, second, rfl⟩] at made
          cases made

/-- The calls that succeed are collected, by induction from the last call on. -/
theorem connect_answers (scope : String) (widths : List Nat) (requests : List Request)
    : ∃ joins splices, (connect scope widths requests).Answers widths requests joins splices := by
  induction requests using List.reverseRecOn with
  | nil =>
      refine ⟨[], [], collected_ofWidths scope widths, ?_, ?_⟩
      · simp
      · simp
  | append_singleton requests last ih =>
      obtain ⟨joins, splices, answers⟩ := ih
      rw [connect_concat]
      cases last with
      | join a b =>
          obtain ⟨joins, answers⟩ := answers.join a b
          exact ⟨joins, splices, answers⟩
      | splice a b =>
          obtain ⟨splices, answers⟩ := answers.splice a b
          exact ⟨joins, splices, answers⟩

end Draft

end SchematicHdl.Net
