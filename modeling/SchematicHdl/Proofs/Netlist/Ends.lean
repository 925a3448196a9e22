import SchematicHdl.Netlist.Analysis
import SchematicHdl.Proofs.Net.Canonical
import SchematicHdl.Proofs.Outcome
import SchematicHdl.Proofs.Schematic.Layout

/-! The ends of an analyzed circuit. An end has the shape that its component gives it, and each of
its bits is resolved to the point of the wire bit that it is attached to. Filing sources and sinks
changes no net otherwise.
-/

namespace SchematicHdl

open Net (Point Table Tied HasBit)
open Outcome

-----------------------------------------------------------------------------------------
-- Nets without what lands on them
-----------------------------------------------------------------------------------------

namespace Net

/-- A net without its sources and sinks. -/
def bare (net : Net) : Net := { net with sources := [], sinks := [] }

namespace Table

/-- The nets of a table without what lands on them. -/
def bare (table : Table) : Table := { table with nets := table.nets.map Net.bare }

theorem nets_bare_getElem? (table : Table) (position : Nat)
    : table.bare.nets[position]? = table.nets[position]?.map Net.bare := by
  simp [bare]

@[simp] theorem widthAt_bare (table : Table) (net : Nat)
    : table.bare.widthAt net = table.widthAt net := by
  simp only [widthAt, nets_bare_getElem?, Option.map_map]
  rfl

@[simp] theorem nameAt_bare (table : Table) (net : Nat)
    : table.bare.nameAt net = table.nameAt net := by
  simp [nameAt]

@[simp] theorem rootNets_bare (table : Table) : table.bare.rootNets = table.rootNets := by
  simp only [rootNets, nets_bare_getElem?, Option.map_map]
  simp only [bare, List.length_map]
  rfl

@[simp] theorem canonicalOf_bare (table : Table) (point : Point)
    : table.bare.canonicalOf point = table.canonicalOf point := by
  simp only [canonicalOf, nets_bare_getElem?]
  cases table.nets[point.net]? with
  | none => rfl
  | some net => rfl

@[simp] theorem wiring_bare (table : Table) : table.bare.wiring = table.wiring := by
  simp only [wiring, aliases, rootNets_bare, widthAt_bare, canonicalOf_bare]

@[simp] theorem pointAt_bare (table : Table) (wire bit : Nat)
    : table.bare.pointAt wire bit = table.pointAt wire bit :=
  rfl

@[simp] theorem canonical?_bare (table : Table) (bit : WireBit)
    : table.bare.canonical? bit = table.canonical? bit := by
  simp only [canonical?, widthAt_bare]
  rfl

theorem rooted_bare {table : Table} {point : Point}
    : table.bare.Rooted point ↔ table.Rooted point := by
  simp only [Rooted, nets_bare_getElem?]
  cases table.nets[point.net]? with
  | none => simp
  | some net => simp [Net.bare]

/-- A change that leaves a net as it is but for its sources and sinks. -/
theorem map_bare_modify (nets : List Net) (position : Nat) (change : Net → Net)
    (kept : ∀ net, (change net).bare = net.bare)
    : (nets.modify position change).map Net.bare = nets.map Net.bare := by
  apply List.ext_getElem?
  intro i
  simp only [List.getElem?_map, List.getElem?_modify]
  cases nets[i]? with
  | none => rfl
  | some net =>
      by_cases here : position = i
      · simp [here, kept]
      · simp [here]

@[simp] theorem bare_addSource (table : Table) (point : Point) (component endIndex bit : Nat)
    : (table.addSource point component endIndex bit).bare = table.bare := by
  have kept := map_bare_modify table.nets point.net
    (fun net => { net with sources := net.sources ++ [⟨component, endIndex, bit, point.bit⟩] })
    (fun _ => rfl)
  simp only [bare, addSource, kept]

@[simp] theorem bare_addSink (table : Table) (point : Point) (component endIndex bit : Nat)
    : (table.addSink point component endIndex bit).bare = table.bare := by
  have kept := map_bare_modify table.nets point.net
    (fun net => { net with sinks := net.sinks ++ [⟨component, endIndex, bit, point.bit⟩] })
    (fun _ => rfl)
  simp only [bare, addSink, kept]

theorem bare_freeze (draft : Draft) : draft.freeze.bare = draft.freeze := by
  have nothing : draft.freeze.nets.map Net.bare = draft.freeze.nets := by
    apply List.ext_getElem?
    intro i
    simp only [Draft.freeze, List.getElem?_map, List.getElem?_mapIdx, Option.map_map]
    rfl
  simp only [bare, nothing]

end Table

end Net

-----------------------------------------------------------------------------------------
-- Filing ends
-----------------------------------------------------------------------------------------

namespace Netlist

@[simp] theorem bare_fileBit (nets : Table) (direction : Direction)
    (component endIndex bit : Nat) (point : Point)
    : (fileBit nets direction component endIndex bit point).bare = nets.bare := by
  cases direction <;> simp [fileBit, Direction.drives, Direction.reads]

theorem bare_foldl {α : Type} {file : Table → α → Table}
    (kept : ∀ nets x, (file nets x).bare = nets.bare) (xs : List α) (nets : Table)
    : (xs.foldl file nets).bare = nets.bare := by
  induction xs generalizing nets with
  | nil => rfl
  | cons x xs ih => rw [List.foldl_cons, ih, kept]

@[simp] theorem bare_fileEnd (nets : Table) (component endIndex : Nat) (resolved : ResolvedEnd)
    : (fileEnd nets component endIndex resolved).bare = nets.bare := by
  refine bare_foldl (fun nets entry => ?_) _ nets
  obtain ⟨point, bit⟩ := entry
  cases point <;> simp

@[simp] theorem bare_filePart (nets : Table) (part : Part)
    : (filePart nets part).bare = nets.bare :=
  bare_foldl (fun nets _ => bare_fileEnd nets _ _ _) _ nets

-----------------------------------------------------------------------------------------
-- Resolved ends
-----------------------------------------------------------------------------------------

/-- The wire bit that one bit of an end of a component is attached to. -/
def attachedBit? (circuit : Circuit) (component : Component) (endIndex bit : Nat)
    : Option WireBit :=
  match component.connection? endIndex with
  | none => none
  | some (.wire wire) => if bit < circuit.wires.getD wire 0 then some ⟨wire, bit⟩ else none
  | some (.bits bits) => bits[bit]?.join

/-- The number of bits that an end gets from what it is attached to. -/
def connectionWidth (circuit : Circuit) : Connection → Nat
  | .wire wire => circuit.wires.getD wire 0
  | .bits bits => bits.length

/-- What the resolution of an end yields: the shape of the end, and bit by bit the points of the
attached wire bits, all of which exist.
-/
structure ResolvesEnd (circuit : Circuit) (nets : Table) (component : Component)
    (endIndex : Nat) (shape : EndShape) (resolved : ResolvedEnd)
    : Prop where
  direction_eq : resolved.direction = shape.direction
  width_eq : resolved.width = shape.width
  connected
    : ∀ connection,
        component.connection? endIndex = some connection
        → connectionWidth circuit connection = shape.width
  point_eq
    : ∀ bit,
        resolved.points[bit]?.join
        = (attachedBit? circuit component endIndex bit).bind nets.canonical?
  known
    : ∀ bit wireBit,
        attachedBit? circuit component endIndex bit = some wireBit
        → (nets.canonical? wireBit).isSome

theorem canonicalPoint_eq_ok {circuit : Circuit} {nets : Table} {bit : WireBit} {point : Point}
    : canonicalPoint circuit nets bit = .ok point ↔ nets.canonical? bit = some point := by
  unfold canonicalPoint
  split <;> simp_all

theorem wirePoints_spec {circuit : Circuit} {nets : Table} {component : Component}
    {endIndex : Nat} {shape : EndShape} {wire : Nat} {points : List (Option Point)}
    (h : wirePoints circuit nets component endIndex shape wire = .ok points)
    : shape.width = circuit.wires.getD wire 0
      ∧ points.length = shape.width
      ∧ ∀ bit < shape.width,
          ∃ point, nets.canonical? ⟨wire, bit⟩ = some point ∧ points[bit]? = some (some point) := by
  simp only [wirePoints] at h
  split at h
  · cases h
  · next same =>
      have wide : circuit.wires.getD wire 0 = shape.width := Decidable.not_not.mp same
      have paired := mapM_eq_ok.1 h
      rw [wide] at paired
      refine ⟨wide.symm, ?_, ?_⟩
      · simpa using paired.length_eq.symm
      · intro bit lower
        obtain ⟨point, found, step⟩ := forall₂_getElem? paired (List.getElem?_range lower)
        obtain ⟨canonical, known, rfl⟩ := map_eq_ok.1 step
        exact ⟨canonical, canonicalPoint_eq_ok.1 known, found⟩

theorem bitPoints_spec {circuit : Circuit} {nets : Table} {component : Component}
    {endIndex : Nat} {shape : EndShape} {bits : List (Option WireBit)}
    {points : List (Option Point)}
    (h : bitPoints circuit nets component endIndex shape bits = .ok points)
    : bits.length = shape.width
      ∧ List.Forall₂
          (fun bit point =>
            point = bit.bind nets.canonical?
            ∧ ∀ wireBit, bit = some wireBit → (nets.canonical? wireBit).isSome)
          bits points := by
  simp only [bitPoints] at h
  split at h
  · cases h
  · next same =>
      refine ⟨Decidable.not_not.mp same, (mapM_eq_ok.1 h).imp ?_⟩
      intro bit point step
      cases bit with
      | none =>
          cases step
          simp
      | some bit =>
          obtain ⟨canonical, known, rfl⟩ := map_eq_ok.1 step
          simp [canonicalPoint_eq_ok.1 known]

section ResolveEnd

variable {circuit : Circuit} {nets : Table} {component : Component} {endIndex : Nat}
  {shape : EndShape}

/-- An end that is attached to nothing has no point at any of its bits. -/
theorem resolvesEnd_unattached (attached : component.connection? endIndex = none)
    : ResolvesEnd circuit nets component endIndex shape
        ⟨shape.direction, List.replicate shape.width none⟩ := by
  have nowhere (bit : Nat) : attachedBit? circuit component endIndex bit = none := by
    simp [attachedBit?, attached]
  constructor
  · rfl
  · simp [ResolvedEnd.width]
  · simp [attached]
  · intro bit
    rw [nowhere, Option.bind_none, List.getElem?_replicate]
    split <;> rfl
  · intro bit wireBit here
    rw [nowhere] at here
    cases here

/-- An end that is attached to a wire has the points of its bits in order. -/
theorem resolvesEnd_wire {wire : Nat} {points : List (Option Point)}
    (attached : component.connection? endIndex = some (.wire wire))
    (formed : wirePoints circuit nets component endIndex shape wire = .ok points)
    : ResolvesEnd circuit nets component endIndex shape ⟨shape.direction, points⟩ := by
  obtain ⟨wide, length, each⟩ := wirePoints_spec formed
  have place (bit : Nat)
      : attachedBit? circuit component endIndex bit
        = if bit < shape.width then some ⟨wire, bit⟩ else none := by
    simp only [attachedBit?, attached, wide]
  constructor
  · rfl
  · exact length
  · simp [attached, connectionWidth, wide]
  · intro bit
    rw [place]
    split
    · next lower =>
        obtain ⟨point, known, found⟩ := each bit lower
        simp [found, known]
    · next beyond =>
        rw [List.getElem?_eq_none (by simpa [length] using beyond)]
        rfl
  · intro bit wireBit here
    rw [place] at here
    split at here
    · next lower =>
        obtain ⟨point, known, -⟩ := each bit lower
        obtain rfl := Option.some.inj here
        simp [known]
    · cases here

/-- An end that is attached bit by bit has the points of the attached bits, and none elsewhere. -/
theorem resolvesEnd_bits {bits : List (Option WireBit)} {points : List (Option Point)}
    (attached : component.connection? endIndex = some (.bits bits))
    (formed : bitPoints circuit nets component endIndex shape bits = .ok points)
    : ResolvesEnd circuit nets component endIndex shape ⟨shape.direction, points⟩ := by
  obtain ⟨length, paired⟩ := bitPoints_spec formed
  have place (bit : Nat)
      : attachedBit? circuit component endIndex bit = bits[bit]?.join := by
    simp only [attachedBit?, attached]
  constructor
  · rfl
  · exact paired.length_eq.symm.trans length
  · simp [attached, connectionWidth, length]
  · intro bit
    rw [place]
    cases found : bits[bit]? with
    | none =>
        have short : points.length ≤ bit :=
          paired.length_eq ▸ List.getElem?_eq_none_iff.mp found
        rw [List.getElem?_eq_none short]
        rfl
    | some entry =>
        obtain ⟨point, atBit, same, -⟩ := forall₂_getElem? paired found
        simp [atBit, same]
  · intro bit wireBit here
    rw [place] at here
    cases found : bits[bit]? with
    | none => simp [found] at here
    | some entry =>
        obtain ⟨point, -, -, known⟩ := forall₂_getElem? paired found
        exact known wireBit (by simpa [found] using here)

/-- An end is resolved to the points of what it is attached to, by cases on the connection. -/
theorem resolveEnd_spec {resolved : ResolvedEnd}
    (h : resolveEnd circuit nets component endIndex shape = .ok resolved)
    : ResolvesEnd circuit nets component endIndex shape resolved := by
  cases attached : component.connection? endIndex with
  | none =>
      simp only [resolveEnd, attached] at h
      obtain ⟨points, formed, made⟩ := bind_eq_ok.1 h
      cases formed
      cases made
      exact resolvesEnd_unattached attached
  | some connection =>
      cases connection with
      | wire wire =>
          simp only [resolveEnd, attached] at h
          obtain ⟨points, formed, made⟩ := bind_eq_ok.1 h
          cases made
          exact resolvesEnd_wire attached formed
      | bits bits =>
          simp only [resolveEnd, attached] at h
          obtain ⟨points, formed, made⟩ := bind_eq_ok.1 h
          cases made
          exact resolvesEnd_bits attached formed

end ResolveEnd

/-- What the resolution of a component yields: the component with all its ends resolved. -/
structure ResolvesPart (library : Library) (circuit : Circuit) (nets : Table)
    (component : Component) (part : Part)
    : Prop where
  component_eq : part.component = component
  length_eq : part.ends.length = (library.ends component).length
  ends
    : ∀ endIndex shape resolved,
        (library.ends component)[endIndex]? = some shape
        → part.ends[endIndex]? = some resolved
        → ResolvesEnd circuit nets component endIndex shape resolved

/-- Nothing is known of a part but its ends. -/
def Unbound (part : Part) : Prop :=
  part.bubbles = .none ∧ part.clockTree = none ∧ part.portName = none

theorem resolvePart_spec [Arithmetic] {library : Library} {circuit : Circuit} {nets : Table}
    {component : Component} {part : Part}
    (h : resolvePart library circuit nets component = .ok part)
    : ResolvesPart library circuit nets component part ∧ Unbound part := by
  obtain ⟨shapes, laidOut, h⟩ := bind_eq_ok.1 h
  obtain ⟨-, rfl⟩ := Library.layOut_eq_ok.1 (mapError_eq_ok.1 laidOut)
  obtain ⟨ends, resolved, made⟩ := bind_eq_ok.1 h
  cases made
  have paired := mapM_eq_ok.1 resolved
  refine ⟨⟨rfl, by simpa using paired.length_eq.symm, fun endIndex shape found here there => ?_⟩,
    rfl, rfl, rfl⟩
  have numbered : (library.ends component).zipIdx[endIndex]? = some (shape, endIndex) := by
    simp [List.getElem?_zipIdx, here]
  obtain ⟨result, same, step⟩ := forall₂_getElem? paired numbered
  obtain rfl : result = found := by simpa [same] using there
  exact resolveEnd_spec step

/-- Where overflow is checked, the ends of a resolved component are counted. -/
theorem countsEnds_of_resolvePart [Arithmetic] {library : Library} {circuit : Circuit}
    {nets : Table} {component : Component} {part : Part}
    (h : resolvePart library circuit nets component = .ok part)
    : Arithmetic.checksOverflow = true → component.CountsEnds := by
  obtain ⟨shapes, laidOut, -⟩ := bind_eq_ok.1 h
  exact (Library.layOut_eq_ok.1 (mapError_eq_ok.1 laidOut)).1

end Netlist

end SchematicHdl
