import SchematicHdl.Proofs.Netlist.Connectivity
import SchematicHdl.Proofs.Netlist.Inventory

/-! What lands on the nets of an analyzed circuit. Every connected bit of an end is filed on the net
of its point, as a source where the end drives and as a sink where it reads, and nothing else is; so
the drivers of a point and the bits that nothing drives are told by the ends of the parts alone.
-/

namespace SchematicHdl

open Net (Point Table Endpoint)
open Outcome

-----------------------------------------------------------------------------------------
-- Filing step by step
-----------------------------------------------------------------------------------------

/-- What an end does to the net it lands on. An end of both directions plays both roles. -/
inductive Role where
  | driver
  | reader

namespace Role

def played : Role → Direction → Bool
  | driver => Direction.drives
  | reader => Direction.reads

/-- The endpoints of a net that play the role. -/
def endpoints : Role → Net → List Endpoint
  | driver => Net.sources
  | reader => Net.sinks

end Role

/-- The endpoints on a net that play a role. -/
def Net.Table.landed (table : Table) (role : Role) (net : Nat) : List Endpoint :=
  (table.nets[net]?.map role.endpoints).getD []

namespace Netlist

/-- A connected bit of an end, and the point that it resolves to. -/
structure Landing where
  point : Point
  place : EndBit
deriving DecidableEq, Repr

/-- The bit as the net of its point has it on file. -/
def Landing.endpoint (landing : Landing) : Endpoint :=
  ⟨landing.place.component, landing.place.endIndex, landing.place.bit, landing.point.bit⟩

/-- A change of a table of some length adds the given bits to their nets, in their order, and
nothing else.
-/
def Files (role : Role) (count : Nat) (change : Table → Table) (new : List Landing) : Prop :=
  ∀ table : Table,
    table.nets.length = count
    → (change table).nets.length = count
      ∧ ∀ net,
          (change table).landed role net
          = table.landed role net
            ++ (new.filter (fun landing => landing.point.net = net)).map Landing.endpoint

section Files

variable {role : Role} {count : Nat} {change : Table → Table} {new : List Landing}

theorem Files.nothing : Files role count id [] :=
  fun _ length => ⟨length, fun _ => by simp⟩

theorem Files.andThen {later : Table → Table} {more : List Landing}
    (files : Files role count change new) (filesLater : Files role count later more)
    : Files role count (later ∘ change) (new ++ more) := by
  intro table length
  obtain ⟨middle, added⟩ := files table length
  obtain ⟨last, addedLater⟩ := filesLater _ middle
  refine ⟨last, fun net => ?_⟩
  rw [Function.comp_apply, addedLater, added, List.append_assoc, List.filter_append,
    List.map_append]

/-- A list is filed when its entries are, by induction on the list. -/
theorem Files.foldl {α : Type} {file : Table → α → Table} (new : α → List Landing) {xs : List α}
    (each : ∀ x ∈ xs, Files role count (fun table => file table x) (new x))
    : Files role count (fun table => xs.foldl file table) (xs.flatMap new) := by
  induction xs with
  | nil => exact Files.nothing
  | cons x xs ih =>
      obtain ⟨head, tail⟩ := List.forall_mem_cons.mp each
      exact head.andThen (ih tail)

theorem Files.ite (condition : Bool) (files : Files role count change new)
    : Files role count (fun table => if condition then change table else table)
        (if condition then new else []) := by
  cases condition with
  | false => exact Files.nothing
  | true => exact files

/-- Filing at a point adds a bit to its net. -/
theorem files_modify (landing : Landing) (inside : landing.point.net < count)
    {change : Net → Net}
    (added : ∀ net, role.endpoints (change net) = role.endpoints net ++ [landing.endpoint])
    : Files role count
        (fun table => { table with nets := table.nets.modify landing.point.net change })
        [landing] := by
  intro table length
  refine ⟨by simp [length], fun net => ?_⟩
  simp only [Table.landed, List.getElem?_modify]
  by_cases here : landing.point.net = net
  · subst here
    rw [List.getElem?_eq_getElem (length ▸ inside)]
    simp [added]
  · cases table.nets[net]? <;> simp [here]

theorem files_modify_other {net : Nat} {change : Net → Net}
    (kept : ∀ net, role.endpoints (change net) = role.endpoints net)
    : Files role count (fun table => { table with nets := table.nets.modify net change }) [] := by
  intro table length
  refine ⟨by simp [length], fun other => ?_⟩
  simp only [Table.landed, List.getElem?_modify]
  cases table.nets[other]? with
  | none => simp
  | some found => by_cases here : net = other <;> simp [here, kept]

theorem files_fileBit {point : Point} (inside : point.net < count) (direction : Direction)
    (component endIndex bit : Nat)
    : Files role count (fun table => fileBit table direction component endIndex bit point)
        (if role.played direction then [⟨point, ⟨component, endIndex, bit⟩⟩] else []) := by
  let landing : Landing := ⟨point, ⟨component, endIndex, bit⟩⟩
  cases role with
  | driver =>
      have source
          : Files .driver count (fun table => table.addSource point component endIndex bit)
              [landing] :=
        files_modify landing inside fun _ => rfl
      have sink
          : Files .driver count (fun table => table.addSink point component endIndex bit) [] :=
        files_modify_other fun _ => rfl
      have both := (source.ite direction.drives).andThen (sink.ite direction.reads)
      rwa [ite_self, List.append_nil] at both
  | reader =>
      have source
          : Files .reader count (fun table => table.addSource point component endIndex bit) [] :=
        files_modify_other fun _ => rfl
      have sink
          : Files .reader count (fun table => table.addSink point component endIndex bit)
              [landing] :=
        files_modify landing inside fun _ => rfl
      have both := (source.ite direction.drives).andThen (sink.ite direction.reads)
      rwa [ite_self, List.nil_append] at both

end Files

-----------------------------------------------------------------------------------------
-- Ends and parts
-----------------------------------------------------------------------------------------

/-- The connected bits of an end, in bit order. -/
def endLandings (component endIndex : Nat) (resolved : ResolvedEnd) : List Landing :=
  (List.range resolved.width).filterMap (fun bit =>
    resolved.points[bit]?.join.map (fun point => ⟨point, ⟨component, endIndex, bit⟩⟩))

/-- The connected bits of the ends of a part that play a role, in end and bit order. -/
def landings (role : Role) (part : Part) : List Landing :=
  part.ends.zipIdx.flatMap (fun (resolved, endIndex) =>
    if role.played resolved.direction then endLandings part.position endIndex resolved else [])

/-- An endpoint on a net is a connected bit of an end of a part, and plays a role. -/
def Lands (part : Part) (role : Role) (net : Nat) (endpoint : Endpoint) : Prop :=
  ∃ resolved,
    part.end? endpoint.endIndex = some resolved
    ∧ role.played resolved.direction = true
    ∧ resolved.points[endpoint.bit]? = some (some ⟨net, endpoint.netBit⟩)
    ∧ endpoint.component = part.position

instance (part : Part) (role : Role) (net : Nat) (endpoint : Endpoint)
    : Decidable (Lands part role net endpoint) :=
  decidable_of_iff
    ((part.end? endpoint.endIndex).any (fun resolved =>
        role.played resolved.direction
        && resolved.points[endpoint.bit]? == some (some ⟨net, endpoint.netBit⟩)
        && endpoint.component == part.position))
    (by simp [Lands, Option.any_eq_true, and_assoc])

/-- The points of the ends of a part are on the nets of a table of some length. -/
def Within (count : Nat) (part : Part) : Prop :=
  ∀ resolved ∈ part.ends, ∀ point, some point ∈ resolved.points → point.net < count

theorem mem_endLandings {component endIndex : Nat} {resolved : ResolvedEnd} {landing : Landing}
    : landing ∈ endLandings component endIndex resolved
      ↔ resolved.points[landing.place.bit]? = some (some landing.point)
        ∧ landing.place.component = component
        ∧ landing.place.endIndex = endIndex := by
  simp only [endLandings, List.mem_filterMap, List.mem_range, Option.map_eq_some_iff,
    Option.join_eq_some_iff]
  constructor
  · rintro ⟨bit, -, point, found, rfl⟩
    exact ⟨found, rfl, rfl⟩
  · rintro ⟨found, rfl, rfl⟩
    exact ⟨_, (List.getElem?_eq_some_iff.mp found).1, _, found, rfl⟩

/-- What lands on a net from a part, one by one. -/
theorem mem_landings {part : Part} {role : Role} {net : Nat} {endpoint : Endpoint}
    : (∃ landing ∈ landings role part, landing.point.net = net ∧ landing.endpoint = endpoint)
      ↔ Lands part role net endpoint := by
  simp only [landings, List.mem_flatMap, Prod.exists, List.mem_zipIdx_iff_getElem?,
    List.mem_ite_nil_right, mem_endLandings]
  constructor
  · rintro ⟨⟨⟨_, pointBit⟩, _, _, bit⟩, ⟨resolved, _, found, plays, atBit, rfl, rfl⟩, rfl, rfl⟩
    exact ⟨resolved, found, plays, atBit, rfl⟩
  · rintro ⟨resolved, found, plays, atBit, same⟩
    refine ⟨⟨⟨net, endpoint.netBit⟩, ⟨endpoint.component, endpoint.endIndex, endpoint.bit⟩⟩, ?_⟩
    exact ⟨⟨resolved, _, found, plays, atBit, same, rfl⟩, rfl, rfl⟩

/-- The places of a list in order, by induction on the list. -/
theorem zipIdx_eq_map_range {α : Type} (xs : List (Option α))
    : xs.zipIdx = (List.range xs.length).map (fun i => (xs[i]?.join, i)) := by
  apply List.ext_getElem
  · simp
  · intro i h _
    simp at h
    simp [h]

section Parts

variable {role : Role} {count : Nat}

/-- Filing an end adds its connected bits. -/
theorem files_fileEnd {resolved : ResolvedEnd}
    (inside : ∀ point, some point ∈ resolved.points → point.net < count)
    (component endIndex : Nat)
    : Files role count (fun table => fileEnd table component endIndex resolved)
        (if role.played resolved.direction then endLandings component endIndex resolved else [])
    := by
  let new : Option Point × Nat → List Landing := fun entry =>
    (entry.1.map (fun point =>
      if role.played resolved.direction then [⟨point, ⟨component, endIndex, entry.2⟩⟩]
      else [])).getD []
  have filed
      : Files role count (fun table => fileEnd table component endIndex resolved)
          (resolved.points.zipIdx.flatMap new) := by
    refine Files.foldl new fun entry listed => ?_
    obtain ⟨point?, bit⟩ := entry
    cases point? with
    | none => exact Files.nothing
    | some point =>
        exact files_fileBit (inside point (List.fst_mem_of_mem_zipIdx listed)) resolved.direction
          component endIndex bit
  have same
      : resolved.points.zipIdx.flatMap new
        = if role.played resolved.direction then endLandings component endIndex resolved
          else [] := by
    rw [zipIdx_eq_map_range, List.flatMap_map]
    split
    · next plays =>
        rw [endLandings, List.filterMap_eq_flatMap_toList]
        refine List.flatMap_congr fun bit _ => ?_
        cases resolved.points[bit]?.join <;> simp [new, plays]
    · next apart =>
        refine List.flatMap_eq_nil_iff.mpr fun bit _ => ?_
        cases resolved.points[bit]?.join <;> simp [new, apart]
  rwa [same] at filed

theorem files_filePart {part : Part} (inside : Within count part)
    : Files role count (fun table => filePart table part) (landings role part) :=
  Files.foldl _ fun entry listed =>
    files_fileEnd (inside entry.1 (List.fst_mem_of_mem_zipIdx listed)) part.position entry.2

/-- What is on bare nets once all parts are filed. -/
theorem landed_foldl_filePart {table : Table} (bare : table.bare = table) {parts : List Part}
    (inside : ∀ part ∈ parts, Within table.nets.length part) (net : Nat)
    : (parts.foldl filePart table).landed role net
      = ((parts.flatMap (landings role)).filter (fun landing => landing.point.net = net)).map
          Landing.endpoint := by
  have filed := Files.foldl (landings role) fun part listed => files_filePart (inside part listed)
  have nothing : table.landed role net = [] := by
    rw [← bare, Table.landed, Table.nets_bare_getElem?, Option.map_map]
    cases table.nets[net]? <;> cases role <;> rfl
  rw [(filed table rfl).2 net, nothing, List.nil_append]

end Parts

end Netlist

-----------------------------------------------------------------------------------------
-- Drivers and undriven bits
-----------------------------------------------------------------------------------------

namespace Net

/-- Leaving out repetitions loses no number, by induction on the numbers that are left. -/
theorem mem_eraseReps {n : Nat} {numbers : List Nat} : n ∈ numbers.eraseReps ↔ n ∈ numbers := by
  have looped (rest : List Nat)
      : ∀ last found,
          n ∈ List.eraseRepsBy.loop (· == ·) last rest found
          ↔ n ∈ last :: rest ∨ n ∈ found := by
    induction rest with
    | nil =>
        intro last found
        simp [List.eraseRepsBy.loop, or_comm]
    | cons next rest ih =>
        intro last found
        simp only [List.eraseRepsBy.loop]
        split
        · next same =>
            obtain rfl : last = next := by simpa using same
            simp [ih]
        · simp only [ih, List.mem_cons]
          tauto
  cases numbers with
  | nil => simp [List.eraseReps, List.eraseRepsBy]
  | cons first rest => simp [List.eraseReps, List.eraseRepsBy, looped]

theorem mem_undrivenBits {net : Net} {bit : Nat}
    : bit ∈ net.undrivenBits
      ↔ (∃ sink ∈ net.sinks, sink.netBit = bit) ∧ ∀ source ∈ net.sources, source.netBit ≠ bit := by
  simp [undrivenBits, mem_eraseReps]

namespace Table

theorem mem_drivers {table : Table} {point : Point} {endpoint : Endpoint}
    : endpoint ∈ table.drivers point
      ↔ endpoint ∈ table.landed .driver point.net ∧ endpoint.netBit = point.bit := by
  simp only [drivers, landed, Role.endpoints]
  cases table.nets[point.net]? <;> simp

/-- A net is reported with its undriven bits when it has any. -/
theorem mem_undriven_iff {table : Table} {position : Nat} {bits : List Nat}
    : (position, bits) ∈ table.undriven
      ↔ ∃ net,
          table.nets[position]? = some net
          ∧ net.undrivenBits.isEmpty = false
          ∧ net.undrivenBits = bits := by
  simp only [undriven, List.mem_filterMap, List.mem_range]
  constructor
  · rintro ⟨_, -, here⟩
    split at here
    · next net found =>
        split at here
        · cases here
        · next some =>
            obtain ⟨rfl, rfl⟩ := Prod.mk.inj (Option.some.inj here)
            exact ⟨net, found, by simpa using some, rfl⟩
    · cases here
  · rintro ⟨net, found, some, rfl⟩
    exact ⟨position, (List.getElem?_eq_some_iff.mp found).1, by simp [found, some]⟩

/-- A point is reported as undriven when something reads it and nothing drives it. -/
theorem mem_undriven {table : Table} {point : Point}
    : (∃ bits, (point.net, bits) ∈ table.undriven ∧ point.bit ∈ bits)
      ↔ (∃ sink ∈ table.landed .reader point.net, sink.netBit = point.bit)
        ∧ table.drivers point = [] := by
  cases found : table.nets[point.net]? with
  | none => simp [mem_undriven_iff, found, landed]
  | some net =>
      have empty
          : table.drivers point = [] ↔ ∀ source ∈ net.sources, source.netBit ≠ point.bit := by
        simp [drivers, found, List.filter_eq_nil_iff]
      have sinks : table.landed .reader point.net = net.sinks := by
        simp [landed, found, Role.endpoints]
      rw [empty, sinks, ← mem_undrivenBits]
      constructor
      · rintro ⟨bits, reported, member⟩
        obtain ⟨_, same, -, rfl⟩ := mem_undriven_iff.mp reported
        obtain rfl := Option.some.inj (found.symm.trans same)
        exact member
      · intro member
        refine ⟨_, mem_undriven_iff.mpr ⟨net, found, ?_, rfl⟩, member⟩
        exact List.isEmpty_eq_false_iff.mpr (List.ne_nil_of_mem member)

/-- Where no point has more than one driver, the drivers of a point are the same. -/
theorem eq_of_drivers {table : Table} (single : table.multiplyDriven = []) {point : Point}
    (inside : point.bit < table.widthAt point.net) {endpoint other : Endpoint}
    (drives : endpoint ∈ table.drivers point) (also : other ∈ table.drivers point)
    : endpoint = other := by
  have bounded : (table.drivers point).length ≤ 1 := by
    by_contra more
    have net : point.net < table.nets.length := by
      by_contra outside
      have none : table.nets[point.net]? = none := List.getElem?_eq_none (by omega)
      simp [drivers, none] at drives
    have counted : (point, (table.drivers point).length) ∈ table.multiplyDriven := by
      refine List.mem_flatMap.mpr ⟨point.net, List.mem_range.mpr net, ?_⟩
      refine List.mem_filterMap.mpr ⟨point.bit, List.mem_range.mpr inside, ?_⟩
      exact if_pos (Nat.lt_of_not_le more)
    rw [single] at counted
    cases counted
  match drivers : table.drivers point, bounded with
  | [], _ => simp [drivers] at drives
  | [one], _ =>
      rw [drivers] at drives also
      exact (List.mem_singleton.mp drives).trans (List.mem_singleton.mp also).symm

end Table

end Net

-----------------------------------------------------------------------------------------
-- Analyzed circuits
-----------------------------------------------------------------------------------------

namespace Netlist

theorem landings_sameEnds {part after : Part} (same : SameEnds part after) (role : Role)
    : landings role after = landings role part := by
  rw [landings, same.2, Part.position, same.1]
  rfl

namespace Stages

variable {library : Library} {circuit : Circuit} {children : List Netlist}
  {registry : ClockRegistry} {analyzed : Analyzed}

/-- The points of all ends are on the nets of the circuit. -/
theorem within [Arithmetic] (stages : Stages library circuit children registry analyzed)
    : ∀ part ∈ analyzed.netlist.parts, Within analyzed.netlist.nets.nets.length part := by
  intro part listed resolved found point connected
  obtain ⟨component, -, resolves⟩ := forall₂_mem_right stages.resolvesParts listed
  obtain ⟨shape, -, attached⟩ := forall₂_mem_right (stages.attached resolves) found
  obtain ⟨_, there, -⟩ := attached.rooted point connected
  exact (List.getElem?_eq_some_iff.mp there).1

/-- What is on the nets of an analyzed circuit is filed from its parts, one after the other. -/
theorem landed_eq [Arithmetic] (stages : Stages library circuit children registry analyzed)
    (role : Role)
    (net : Nat)
    : analyzed.netlist.nets.landed role net
      = ((analyzed.netlist.parts.flatMap (landings role)).filter (fun landing =>
          landing.point.net = net)).map Landing.endpoint := by
  obtain ⟨draft, collected, frozen⟩ := bareNets_collected stages.formed
  have bare : stages.bare.bare = stages.bare := by rw [frozen, Table.bare_freeze]
  have length : analyzed.netlist.nets.nets.length = stages.bare.nets.length := by
    have nets := congrArg (fun table => table.nets.length) stages.bare_nets
    simpa [Table.bare] using nets
  have same : List.Forall₂ SameEnds stages.resolved analyzed.netlist.parts := by
    rw [stages.netlist_eq]
    refine stages.settles.imp fun _ _ settled => ?_
    obtain ⟨_, bound, took⟩ := settled
    exact ⟨took.same.1.trans bound.same.1, took.same.2.trans bound.same.2⟩
  have nets : analyzed.netlist.nets = stages.resolved.foldl filePart stages.bare := by
    rw [stages.netlist_eq]
  have inside : ∀ part ∈ stages.resolved, Within stages.bare.nets.length part := by
    intro part listed
    obtain ⟨after, held, kept⟩ := forall₂_mem_right same.flip listed
    have within := stages.within after held
    rwa [length, Within, kept.2] at within
  rw [nets, landed_foldl_filePart bare inside]
  congr 2
  exact flatMap_eq_of_forall₂ same fun _ _ kept => (landings_sameEnds kept role).symm

/-- The endpoints on the nets of an analyzed circuit are the connected bits of its parts. -/
theorem landed [Arithmetic] (stages : Stages library circuit children registry analyzed)
    (role : Role) (net : Nat) (endpoint : Endpoint)
    : endpoint ∈ analyzed.netlist.nets.landed role net
      ↔ ∃ part ∈ analyzed.netlist.parts, Lands part role net endpoint := by
  simp only [stages.landed_eq, List.mem_map, List.mem_filter, List.mem_flatMap,
    decide_eq_true_eq, ← mem_landings]
  constructor
  · rintro ⟨landing, ⟨⟨part, held, listed⟩, here⟩, same⟩
    exact ⟨part, held, landing, listed, here, same⟩
  · rintro ⟨part, held, landing, listed, here, same⟩
    exact ⟨landing, ⟨⟨part, held, listed⟩, here⟩, same⟩

end Stages

end Netlist

end SchematicHdl
