import Mathlib.Data.List.Sort
import SchematicHdl.Proofs.Netlist.Filing

/-! What is on file on the nets of an analyzed circuit, bit by bit. Each connected bit of an end
that drives or reads is on file once, on the canonical point of the wire bit that it is attached to;
so the points with several drivers and the bits that are read but not driven are told by the circuit
alone.
-/

namespace SchematicHdl

open Net (Point Table Endpoint)
open Netlist (Landing landings endLandings)
open Outcome

-----------------------------------------------------------------------------------------
-- Attached bits
-----------------------------------------------------------------------------------------

/-- A connected bit of an end, and the wire bit that it is attached to. -/
structure Attachment where
  place : EndBit
  bit : WireBit
deriving DecidableEq, Repr

namespace Circuit

/-- The connected bits of one end, in bit order. -/
def endAttachments (circuit : Circuit) (component : Component) (endIndex : Nat) (shape : EndShape)
    : List Attachment :=
  (List.range shape.width).filterMap (fun bit =>
    (Netlist.attachedBit? circuit component endIndex bit).map (fun wireBit =>
      ⟨⟨component.position, endIndex, bit⟩, wireBit⟩))

/-- The connected bits of the ends of one component that play a role, in end and bit order. -/
def componentAttachments (circuit : Circuit) (library : Library) (role : Role)
    (component : Component)
    : List Attachment :=
  (library.ends component).zipIdx.flatMap (fun (shape, endIndex) =>
    if role.played shape.direction then circuit.endAttachments component endIndex shape else [])

/-- The connected bits of all ends that play a role, component by component. -/
def attachments (circuit : Circuit) (library : Library) (role : Role) : List Attachment :=
  circuit.components.flatMap (circuit.componentAttachments library role)

end Circuit

/-- What is on file on the nets of a table, net by net. -/
def Net.Table.records (table : Table) (role : Role) : List Landing :=
  (List.range table.nets.length).flatMap (fun net =>
    (table.landed role net).map (fun endpoint =>
      ⟨⟨net, endpoint.netBit⟩, ⟨endpoint.component, endpoint.endIndex, endpoint.bit⟩⟩))

namespace Netlist

/-- There is one record for each connected bit of the ends of the circuit that play the role, and no
other one; it is on the canonical point of the wire bit.
-/
def FilesEnds (library : Library) (netlist : Netlist) (role : Role) : Prop :=
  ((netlist.nets.records role).map (fun record => (record.place, some record.point))).Perm
    ((netlist.circuit.attachments library role).map (fun attachment =>
      (attachment.place, netlist.nets.canonical? attachment.bit)))

/-- The number of connected bits of ends that play the role at a point. -/
def load (library : Library) (netlist : Netlist) (role : Role) (point : Point) : Nat :=
  (netlist.circuit.attachments library role).countP (fun attachment =>
    netlist.nets.canonical? attachment.bit = some point)

/-- The points with several drivers, each once with the number of its drivers, and the nets with
bits that are read but not driven, each once with these bits in ascending order.
-/
structure Diagnosed (library : Library) (netlist : Netlist) (shared : List (Point × Nat))
    (undriven : List (Nat × List Nat))
    : Prop where
  shared_once : (shared.map Prod.fst).Nodup
  shared
    : ∀ point count,
        (point, count) ∈ shared ↔ count = netlist.load library .driver point ∧ 2 ≤ count
  undriven_once : (undriven.map Prod.fst).Nodup
  undriven
    : ∀ net bits,
        (net, bits) ∈ undriven
        ↔ bits ≠ []
          ∧ bits.Pairwise (· < ·)
          ∧ ∀ bit,
              bit ∈ bits
              ↔ 0 < netlist.load library .reader ⟨net, bit⟩
                ∧ netlist.load library .driver ⟨net, bit⟩ = 0

end Netlist

theorem Net.Point.eq_iff {a b : Point} : a = b ↔ a.net = b.net ∧ a.bit = b.bit := by
  cases a
  cases b
  simp

-----------------------------------------------------------------------------------------
-- What a table reports
-----------------------------------------------------------------------------------------

namespace Net

/-- Leaving out repetitions of ascending numbers leaves them strictly ascending, by induction on the
numbers that are left.
-/
theorem eraseReps_ascending {numbers : List Nat} (ascending : numbers.Pairwise (· ≤ ·))
    : numbers.eraseReps.Pairwise (· < ·) := by
  have looped (rest : List Nat)
      : ∀ last found,
          (last :: rest).Pairwise (· ≤ ·)
          → (last :: found).Pairwise (· > ·)
          → (List.eraseRepsBy.loop (· == ·) last rest found).Pairwise (· < ·) := by
    induction rest with
    | nil =>
        intro last found _ descending
        exact List.pairwise_reverse.mpr descending
    | cons next rest ih =>
        intro last found ascending descending
        obtain ⟨lowest, ascending⟩ := List.pairwise_cons.mp ascending
        simp only [List.eraseRepsBy.loop]
        split
        · next same =>
            obtain rfl : last = next := by simpa using same
            exact ih last found ascending descending
        · next other =>
            have above : last < next :=
              Nat.lt_of_le_of_ne (lowest next List.mem_cons_self) (by simpa using other)
            refine ih next (last :: found) ascending (List.pairwise_cons.mpr ⟨?_, descending⟩)
            intro earlier member
            rcases List.mem_cons.mp member with rfl | member
            · exact above
            · exact Nat.lt_trans ((List.pairwise_cons.mp descending).1 earlier member) above
  cases numbers with
  | nil => exact List.Pairwise.nil
  | cons first rest => exact looped rest first [] ascending (List.pairwise_singleton _ _)

theorem undrivenBits_ascending (net : Net) : net.undrivenBits.Pairwise (· < ·) :=
  eraseReps_ascending (List.pairwise_mergeSort' (· ≤ ·) _)

namespace Table

variable {table : Table}

theorem mem_multiplyDriven {point : Point} {count : Nat}
    : (point, count) ∈ table.multiplyDriven
      ↔ point.net < table.nets.length
        ∧ point.bit < table.widthAt point.net
        ∧ count = (table.drivers point).length
        ∧ 2 ≤ count := by
  simp only [multiplyDriven, List.mem_flatMap, List.mem_filterMap, List.mem_range,
    Option.ite_none_right_eq_some, Option.some.injEq, Prod.mk.injEq]
  constructor
  · rintro ⟨net, inside, bit, lower, several, rfl, rfl⟩
    exact ⟨inside, lower, rfl, several⟩
  · rintro ⟨inside, lower, rfl, several⟩
    exact ⟨point.net, inside, point.bit, lower, several, rfl, rfl⟩

/-- No point is reported twice. -/
theorem multiplyDriven_once (table : Table) : (table.multiplyDriven.map Prod.fst).Nodup := by
  rw [List.Nodup, List.pairwise_map, multiplyDriven, List.pairwise_flatMap]
  constructor
  · intro net _
    rw [List.pairwise_filterMap]
    refine List.nodup_range.imp fun other one reported another also same => ?_
    obtain ⟨-, ⟨⟩⟩ := Option.ite_none_right_eq_some.mp reported
    obtain ⟨-, ⟨⟩⟩ := Option.ite_none_right_eq_some.mp also
    exact other (congrArg Point.bit same)
  · refine List.nodup_range.imp fun other one reported another also same => ?_
    obtain ⟨_, -, here⟩ := List.mem_filterMap.mp reported
    obtain ⟨_, -, there⟩ := List.mem_filterMap.mp also
    obtain ⟨-, ⟨⟩⟩ := Option.ite_none_right_eq_some.mp here
    obtain ⟨-, ⟨⟩⟩ := Option.ite_none_right_eq_some.mp there
    exact other (congrArg Point.net same)

/-- No net is reported twice. -/
theorem undriven_once (table : Table) : (table.undriven.map Prod.fst).Nodup := by
  rw [List.Nodup, List.pairwise_map, undriven, List.pairwise_filterMap]
  refine List.nodup_range.imp fun other one reported another also same => ?_
  split at reported
  · split at also
    · obtain ⟨-, ⟨⟩⟩ := Option.ite_none_left_eq_some.mp reported
      obtain ⟨-, ⟨⟩⟩ := Option.ite_none_left_eq_some.mp also
      exact other same
    · cases also
  · cases reported

end Table

end Net

namespace Netlist

-----------------------------------------------------------------------------------------
-- One record for each attached bit
-----------------------------------------------------------------------------------------

/-- Lists that agree place by place give the same results place by place. -/
theorem flatMap_zipIdx_eq {α β γ : Type} {xs : List α} {ys : List β} {f : α × Nat → List γ}
    {g : β × Nat → List γ} (length : xs.length = ys.length)
    (same : ∀ i x y, xs[i]? = some x → ys[i]? = some y → f (x, i) = g (y, i))
    : xs.zipIdx.flatMap f = ys.zipIdx.flatMap g := by
  have mapped : xs.zipIdx.map f = ys.zipIdx.map g := by
    refine List.ext_getElem (by simp [length]) fun i here there => ?_
    simp only [List.length_map, List.length_zipIdx] at here there
    simpa using
      same i xs[i] ys[i] (List.getElem?_eq_getElem here) (List.getElem?_eq_getElem there)
  rw [List.flatMap_def, mapped, List.flatMap_def]

section Attached

variable {library : Library} {circuit : Circuit} {nets : Table} {component : Component}

/-- The connected bits of a resolved end land on the points of their wire bits. -/
theorem endLandings_eq {endIndex : Nat} {shape : EndShape} {resolved : ResolvedEnd}
    (resolves : ResolvesEnd circuit nets component endIndex shape resolved)
    : (endLandings component.position endIndex resolved).map (fun landing =>
          (landing.place, some landing.point))
      = (circuit.endAttachments component endIndex shape).map (fun attachment =>
          (attachment.place, nets.canonical? attachment.bit)) := by
  rw [endLandings, Circuit.endAttachments, resolves.width_eq, List.map_filterMap,
    List.map_filterMap]
  refine List.filterMap_congr fun bit _ => ?_
  rw [resolves.point_eq]
  cases attached : attachedBit? circuit component endIndex bit with
  | none => rfl
  | some wireBit =>
      obtain ⟨point, found⟩ := Option.isSome_iff_exists.mp (resolves.known bit wireBit attached)
      simp [found]

theorem landings_eq {part : Part} (resolves : ResolvesPart library circuit nets component part)
    (role : Role)
    : (landings role part).map (fun landing => (landing.place, some landing.point))
      = (circuit.componentAttachments library role component).map (fun attachment =>
          (attachment.place, nets.canonical? attachment.bit)) := by
  rw [landings, Circuit.componentAttachments, List.map_flatMap, List.map_flatMap]
  refine flatMap_zipIdx_eq resolves.length_eq fun endIndex resolved shape found shaped => ?_
  have resolved := resolves.ends endIndex shape resolved shaped found
  simp only [resolved.direction_eq, Part.position, resolves.component_eq]
  split
  · exact endLandings_eq resolved
  · rfl

end Attached

/-- Sorted by their nets, the bits are the same, by induction on the number of nets. -/
theorem perm_byNet {listed : List Landing} {count : Nat}
    (inside : ∀ landing ∈ listed, landing.point.net < count)
    : ((List.range count).flatMap (fun net =>
          listed.filter (fun landing => landing.point.net = net))).Perm listed := by
  induction count generalizing listed with
  | zero =>
      have none : listed = [] :=
        List.eq_nil_iff_forall_not_mem.mpr fun landing member =>
          Nat.not_lt_zero _ (inside landing member)
      simp [none]
  | succ count ih =>
      let before := listed.filter (fun landing => landing.point.net ≠ count)
      have earlier : ∀ landing ∈ before, landing.point.net < count := by
        intro landing member
        obtain ⟨held, other⟩ := List.mem_filter.mp member
        have bound := inside landing held
        have other := of_decide_eq_true other
        omega
      have same
          : (List.range count).flatMap (fun net =>
                listed.filter (fun landing => landing.point.net = net))
            = (List.range count).flatMap (fun net =>
                before.filter (fun landing => landing.point.net = net)) := by
        refine List.flatMap_congr fun net member => ?_
        rw [List.filter_filter]
        refine List.filter_congr fun landing _ => ?_
        have lower := List.mem_range.mp member
        by_cases here : landing.point.net = net
        · simp [here, Nat.ne_of_lt lower]
        · simp [here]
      rw [List.range_succ, List.flatMap_append, same]
      refine ((ih earlier).append_right _).trans ?_
      have split := List.filter_append_perm (fun landing => landing.point.net ≠ count) listed
      simpa [before] using split

namespace Stages

variable {library : Library} {circuit : Circuit} {children : List Netlist}
  {registry : ClockRegistry} {analyzed : Analyzed}

/-- The connected bits of all parts with their points are those of the circuit with the canonical
points of their wire bits.
-/
theorem landings_attached [Arithmetic] (stages : Stages library circuit children registry analyzed)
    (role : Role)
    : (analyzed.netlist.parts.flatMap (landings role)).map (fun landing =>
          (landing.place, some landing.point))
      = (analyzed.netlist.circuit.attachments library role).map (fun attachment =>
          (attachment.place, analyzed.netlist.nets.canonical? attachment.bit)) := by
  have canonical (bit : WireBit)
      : analyzed.netlist.nets.canonical? bit = stages.bare.canonical? bit := by
    rw [← Table.canonical?_bare, stages.bare_nets, Table.canonical?_bare]
  simp only [canonical, stages.circuit_eq]
  rw [Circuit.attachments, List.map_flatMap, List.map_flatMap]
  exact
    (flatMap_eq_of_forall₂ stages.resolvesParts fun _ _ resolves =>
      (landings_eq resolves role).symm).symm

theorem landings_within [Arithmetic] (stages : Stages library circuit children registry analyzed)
    (role : Role)
    : ∀ landing ∈ analyzed.netlist.parts.flatMap (landings role),
        analyzed.netlist.nets.Rooted landing.point := by
  intro landing member
  simp only [landings, List.mem_flatMap, Prod.exists, List.mem_ite_nil_right,
    mem_endLandings] at member
  obtain ⟨part, held, resolved, endIndex, numbered, -, atBit, -⟩ := member
  obtain ⟨component, -, resolves⟩ := forall₂_mem_right stages.resolvesParts held
  have listed : resolved ∈ part.ends := List.fst_mem_of_mem_zipIdx numbered
  obtain ⟨shape, -, attached⟩ := forall₂_mem_right (stages.attached resolves) listed
  exact attached.rooted _ (List.mem_of_getElem? atBit)

/-- The ends of an analyzed circuit are on file, bit by bit. -/
theorem filesEnds [Arithmetic] (stages : Stages library circuit children registry analyzed)
    (role : Role)
    : analyzed.netlist.FilesEnds library role := by
  have records
      : analyzed.netlist.nets.records role
        = (List.range analyzed.netlist.nets.nets.length).flatMap (fun net =>
            (analyzed.netlist.parts.flatMap (landings role)).filter (fun landing =>
              landing.point.net = net)) := by
    refine List.flatMap_congr fun net _ => ?_
    rw [stages.landed_eq, List.map_map]
    refine (List.map_congr_left fun landing member => ?_).trans (List.map_id _)
    obtain rfl := of_decide_eq_true (List.mem_filter.mp member).2
    rfl
  rw [FilesEnds, ← stages.landings_attached, records]
  refine (perm_byNet fun landing member => ?_).map _
  obtain ⟨_, there, -⟩ := stages.landings_within role landing member
  exact (List.getElem?_eq_some_iff.mp there).1

-----------------------------------------------------------------------------------------
-- Loads
-----------------------------------------------------------------------------------------

/-- The load of a point is what is on file there. -/
theorem load_eq [Arithmetic] (stages : Stages library circuit children registry analyzed)
    (role : Role) (point : Point)
    : analyzed.netlist.load library role point
      = (analyzed.netlist.nets.landed role point.net).countP (fun endpoint =>
          endpoint.netBit = point.bit) := by
  have counted :=
    congrArg (List.countP (fun entry : EndBit × Option Point => entry.2 = some point))
      (stages.landings_attached role)
  rw [List.countP_map, List.countP_map] at counted
  refine counted.symm.trans ?_
  rw [stages.landed_eq, List.countP_map, List.countP_filter]
  refine List.countP_congr fun landing _ => ?_
  simp only [Function.comp_apply, Option.some.injEq, Net.Point.eq_iff, Landing.endpoint,
    decide_eq_true_eq, Bool.and_eq_true]
  exact (and_congr_right fun _ => decide_eq_true_iff.symm).trans and_comm

theorem drivers_length [Arithmetic] (stages : Stages library circuit children registry analyzed)
    (point : Point)
    : (analyzed.netlist.nets.drivers point).length
      = analyzed.netlist.load library .driver point := by
  rw [stages.load_eq, List.countP_eq_length_filter, Table.drivers, Table.landed]
  cases analyzed.netlist.nets.nets[point.net]? <;> rfl

/-- Only bits of root nets bear a load. -/
theorem rooted_of_load [Arithmetic] (stages : Stages library circuit children registry analyzed)
    {role : Role}
    {point : Point} (loaded : 0 < analyzed.netlist.load library role point)
    : analyzed.netlist.nets.Rooted point := by
  rw [stages.load_eq, List.countP_pos_iff] at loaded
  obtain ⟨endpoint, listed, same⟩ := loaded
  rw [stages.landed_eq] at listed
  obtain ⟨landing, member, rfl⟩ := List.mem_map.mp listed
  obtain ⟨held, here⟩ := List.mem_filter.mp member
  have rooted := stages.landings_within role landing held
  have there : landing.point = point :=
    Net.Point.eq_iff.mpr ⟨of_decide_eq_true here, of_decide_eq_true same⟩
  exact there ▸ rooted

/-- The undriven bits of a net are those that something reads and nothing drives. -/
theorem mem_undrivenBits [Arithmetic] (stages : Stages library circuit children registry analyzed)
    {position : Nat} {net : Net} (found : analyzed.netlist.nets.nets[position]? = some net)
    {bit : Nat}
    : bit ∈ net.undrivenBits
      ↔ 0 < analyzed.netlist.load library .reader ⟨position, bit⟩
        ∧ analyzed.netlist.load library .driver ⟨position, bit⟩ = 0 := by
  rw [Net.mem_undrivenBits, stages.load_eq, stages.load_eq, List.countP_pos_iff,
    List.countP_eq_zero]
  simp [Table.landed, found, Role.endpoints]

/-- The points with several drivers and the bits without any are told by the circuit, through the
canonical points of its wire bits.
-/
theorem diagnosed [Arithmetic] (stages : Stages library circuit children registry analyzed)
    : analyzed.netlist.Diagnosed library analyzed.netlist.nets.multiplyDriven
        analyzed.netlist.nets.undriven where
  shared_once := Table.multiplyDriven_once _
  shared := by
    intro point count
    rw [Table.mem_multiplyDriven, stages.drivers_length]
    refine ⟨fun ⟨_, _, counted, several⟩ => ⟨counted, several⟩, ?_⟩
    rintro ⟨rfl, several⟩
    obtain ⟨net, found, -, lower⟩ :=
      stages.rooted_of_load (Nat.lt_of_lt_of_le Nat.two_pos several)
    refine ⟨(List.getElem?_eq_some_iff.mp found).1, ?_, rfl, several⟩
    rwa [Table.widthAt, found]
  undriven_once := Table.undriven_once _
  undriven := by
    intro position bits
    rw [Table.mem_undriven_iff]
    constructor
    · rintro ⟨net, found, some, rfl⟩
      exact
        ⟨List.isEmpty_eq_false_iff.mp some, net.undrivenBits_ascending,
          fun _ => stages.mem_undrivenBits found⟩
    · rintro ⟨some, ascending, told⟩
      obtain ⟨bit, member⟩ := List.exists_mem_of_ne_nil bits some
      obtain ⟨net, found, -⟩ := stages.rooted_of_load ((told bit).mp member).1
      have same : net.undrivenBits = bits :=
        net.undrivenBits_ascending.eq_of_mem_iff ascending fun {_} =>
          (stages.mem_undrivenBits found).trans (told _).symm
      exact ⟨net, found, List.isEmpty_eq_false_iff.mpr (same ▸ some), same⟩

end Stages

end Netlist

end SchematicHdl
