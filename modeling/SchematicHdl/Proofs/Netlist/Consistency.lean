import Mathlib.Data.List.Nodup
import SchematicHdl.Proofs.Netlist.Packing
import SchematicHdl.Proofs.Schematic.References

/-! Consistent circuits. What is analyzed is consistent: joined wires are equally wide, every
attached end gets its width, and the connected pins get names of their own. What a circuit asks for
on its bubble busses is read off its components, by the pins that nothing is connected to.
-/

namespace SchematicHdl

open Net (HasBit Point Table Draft)
open Outcome

-----------------------------------------------------------------------------------------
-- Consistent circuits
-----------------------------------------------------------------------------------------

/-- A wire or at least one bit is attached. -/
def Connection.connects : Connection → Bool
  | .wire _ => true
  | .bits entries => entries.any Option.isSome

namespace Component

/-- Something is connected to the first end, which is the only one of a pin. -/
def isAttached (component : Component) : Bool :=
  (component.connection? 0).any Connection.connects

/-- The identifier that a component gets for its label. -/
def identifier (component : Component) : String :=
  Identifier.ofLabel (component.label.getD "") component.position

theorem label_of_title? {component : Component} {title : String}
    (titled : component.title? = some title)
    : component.label = some title := by
  unfold title? at titled
  split at titled
  next label found =>
    split at titled
    · cases titled
    · rw [found, Option.some.inj titled]
  next => cases titled

/-- The identifier of a pin that is not wholly unconnected, in lower case. -/
def pinKey? (component : Component) : Option String :=
  if component.isPin && component.isAttached then
    some (Text.foldCase (Identifier.ofLabel (component.label.getD "") component.position))
  else none

theorem identifier_of_pinKey? {component : Component} {key : String}
    (asked : component.pinKey? = some key)
    : Text.foldCase component.identifier = key := by
  unfold pinKey? at asked
  split at asked
  · exact Option.some.inj asked
  · cases asked

end Component

/-- The identifiers of the connected pins, in lower case and in the order of the pins. -/
def Circuit.pinKeys (circuit : Circuit) : List String :=
  circuit.components.filterMap Component.pinKey?

/-- Joined wires are equally wide, connected ends are given their declared widths, and connected
pins have different identifiers, whatever the letter case.
-/
structure Circuit.Consistent (library : Library) (circuit : Circuit) : Prop where
  joins : ∀ a b, (a, b) ∈ circuit.joins → circuit.wires[a]? = circuit.wires[b]?
  widths
    : ∀ component ∈ circuit.components,
        ∀ (endIndex : Nat) (shape : EndShape) (connection : Connection),
          (library.ends component)[endIndex]? = some shape
          → component.connection? endIndex = some connection
          → Netlist.connectionWidth circuit connection = shape.width
  names : circuit.pinKeys.Nodup

-----------------------------------------------------------------------------------------
-- What a circuit asks for
-----------------------------------------------------------------------------------------

/-- What a component asks for on a bus, where every circuit has a count of its own: a pin that
nothing is connected to asks for its width, and an instance for the count of its circuit.
-/
def Component.bubbleDemand (component : Component) (bus : Direction) (count : Nat → Nat) : Nat :=
  match component.kind with
  | .pin direction =>
      if bus = direction ∧ component.isAttached = false then component.attributes.width else 0
  | .subcircuit target => count target.position
  | _ => 0

/-- What a circuit asks for on a bus, where every circuit has a count of its own. -/
def Circuit.bubbleDemand (circuit : Circuit) (bus : Direction) (count : Nat → Nat) : Nat :=
  (circuit.components.map (fun component => component.bubbleDemand bus count)).sum

/-- A circuit asks for the same where the circuits that it instantiates have the same counts. -/
theorem Circuit.bubbleDemand_congr {circuit : Circuit} {count other : Nat → Nat}
    (same
      : ∀ component ∈ circuit.components,
          ∀ target,
            component.kind = .subcircuit target → count target.position = other target.position)
    (bus : Direction)
    : circuit.bubbleDemand bus count = circuit.bubbleDemand bus other := by
  refine congrArg List.sum (List.map_congr_left fun component placed => ?_)
  unfold Component.bubbleDemand
  split
  · rfl
  · next target kind => exact same component placed target kind
  · rfl

/-- The count that a circuit has on a bus among netlists, if it is there. -/
def Netlist.countOf (netlists : List Netlist) (bus : Direction) (circuit : Nat) : Nat :=
  (ofCircuit? netlists circuit).elim 0 (fun netlist => netlist.bubbles.get bus)

-----------------------------------------------------------------------------------------
-- Forming the nets
-----------------------------------------------------------------------------------------

namespace Net.Draft

variable {draft : Draft}

theorem exists_splice {widths : List Nat} (kept : draft.widths = widths) {a b : WireBit}
    (hasA : HasBit widths a) (hasB : HasBit widths b)
    : ∃ next, draft.splice a b = .ok next ∧ next.widths = widths := by
  subst kept
  exact ⟨_, splice_eq_ok.2 ⟨hasA, hasB, rfl⟩, rfl⟩

end Net.Draft

namespace Netlist

variable {library : Library} {circuit : Circuit} {children : List Netlist}
  {registry : ClockRegistry}

/-- Every bit of the wires has a canonical point. -/
theorem exists_canonicalPoint {nets : Table} (formed : bareNets circuit = .ok nets)
    {bit : WireBit} (has : HasBit circuit.wires bit)
    : ∃ point, canonicalPoint circuit nets bit = .ok point := by
  obtain ⟨draft, collected, rfl⟩ := bareNets_collected formed
  obtain ⟨point, chosen⟩ :=
    Option.isSome_iff_exists.mp
      (Draft.canonicalOfClass?_isSome (collected.widths_eq.symm ▸ has))
  exact
    ⟨point, canonicalPoint_eq_ok.2 ((collected.canonical?_freeze has).trans chosen)⟩

-----------------------------------------------------------------------------------------
-- Resolving the ends
-----------------------------------------------------------------------------------------

/-- An end is resolved if what is attached to it is there and is as wide as the end. -/
theorem exists_resolveEnd {nets : Table} (formed : bareNets circuit = .ok nets)
    {component : Component} {endIndex : Nat} {shape : EndShape}
    (attached
      : ∀ connection,
          component.connection? endIndex = some connection
          → circuit.Offers connection ∧ connectionWidth circuit connection = shape.width)
    : ∃ resolved, resolveEnd circuit nets component endIndex shape = .ok resolved := by
  unfold resolveEnd
  cases connected : component.connection? endIndex with
  | none => exact ⟨_, rfl⟩
  | some connection =>
      obtain ⟨offers, width⟩ := attached connection connected
      cases connection with
      | wire wire =>
          have width : circuit.wires.getD wire 0 = shape.width := width
          have found := List.getElem?_eq_getElem offers
          obtain ⟨points, done⟩
              : ∃ points,
                  wirePoints circuit nets component endIndex shape wire = .ok points := by
            simp only [wirePoints, width, ne_eq, not_true_eq_false, if_false]
            refine exists_mapM_ok fun bit member => ?_
            have lower : bit < circuit.wires[wire] := by
              simpa [← width, List.getD_eq_getElem?_getD, found] using member
            have has : HasBit circuit.wires ⟨wire, bit⟩ := ⟨_, found, lower⟩
            obtain ⟨point, here⟩ := exists_canonicalPoint formed has
            exact ⟨some point, map_eq_ok.2 ⟨point, here, rfl⟩⟩
          exact ⟨_, bind_eq_ok.2 ⟨points, done, rfl⟩⟩
      | bits bits =>
          have width : bits.length = shape.width := width
          obtain ⟨points, done⟩
              : ∃ points, bitPoints circuit nets component endIndex shape bits = .ok points := by
            simp only [bitPoints, width, ne_eq, not_true_eq_false, if_false]
            refine exists_mapM_ok fun bit member => ?_
            cases bit with
            | none => exact ⟨none, rfl⟩
            | some bit =>
                obtain ⟨point, here⟩ := exists_canonicalPoint formed (offers bit member)
                exact ⟨some point, map_eq_ok.2 ⟨point, here, rfl⟩⟩
          exact ⟨_, bind_eq_ok.2 ⟨points, done, rfl⟩⟩

/-- An end is unconnected just when no bit of it is attached. -/
theorem ResolvesEnd.isUnconnected_iff {nets : Table} {component : Component} {endIndex : Nat}
    {shape : EndShape} {resolved : ResolvedEnd}
    (resolves : ResolvesEnd circuit nets component endIndex shape resolved)
    : resolved.isUnconnected = true
      ↔ ∀ bit, attachedBit? circuit component endIndex bit = none := by
  rw [ResolvedEnd.isUnconnected, List.all_eq_true]
  constructor
  · intro unconnected bit
    cases attached : attachedBit? circuit component endIndex bit with
    | none => rfl
    | some wireBit =>
        have point := resolves.point_eq bit
        obtain ⟨canonical, known⟩ :=
          Option.isSome_iff_exists.mp (resolves.known bit wireBit attached)
        rw [attached, Option.bind_some, known] at point
        have listed := List.mem_of_getElem? (Option.join_eq_some_iff.mp point)
        have := unconnected _ listed
        cases this
  · intro nowhere point listed
    obtain ⟨bit, found⟩ := List.getElem?_of_mem listed
    have here := resolves.point_eq bit
    rw [nowhere bit, found] at here
    simpa using here

/-- In a wired circuit some bit of the end is attached just when a wire or a bit is connected. -/
theorem attached_iff_connects (wired : circuit.Wired) {component : Component}
    (placed : component ∈ circuit.components) (endIndex : Nat)
    : (∀ bit, attachedBit? circuit component endIndex bit = none)
      ↔ (component.connection? endIndex).any Connection.connects = false := by
  unfold attachedBit?
  cases connected : component.connection? endIndex with
  | none => simp
  | some connection =>
      have offers := wired.attached component placed _ (mem_of_lookup_eq_some connected)
      cases connection with
      | wire wire =>
          have found := List.getElem?_eq_getElem offers
          have positive := wired.widths _ (List.mem_of_getElem? found)
          simp only [Connection.connects, Option.any_some, Bool.true_eq_false, iff_false,
            not_forall]
          refine ⟨0, ?_⟩
          have lower : 0 < circuit.wires.getD wire 0 := by
            simpa [List.getD_eq_getElem?_getD, found] using positive
          rw [if_pos lower]
          exact Option.some_ne_none _
      | bits bits =>
          simp only [Connection.connects, Option.any_some, List.any_eq_false, Bool.not_eq_true,
            Option.isSome_eq_false_iff, Option.isNone_iff_eq_none]
          constructor
          · intro nowhere entry member
            obtain ⟨bit, found⟩ := List.getElem?_of_mem member
            have here := nowhere bit
            rwa [found, Option.join_some] at here
          · intro empty bit
            cases found : bits[bit]? with
            | none => rfl
            | some entry => exact empty entry (List.mem_of_getElem? found)

-----------------------------------------------------------------------------------------
-- Naming the pins
-----------------------------------------------------------------------------------------

/-- The name that a connected pin asks for, in lower case. -/
def portKey? (part : Part) : Option String :=
  match part.component.kind, part.ends with
  | .pin _, resolved :: _ =>
      if resolved.isUnconnected then none else some (Text.foldCase (boundaryName part))
  | _, _ => none

theorem portKey?_of_isPin_eq_false {part : Part} (notPin : part.isPin = false)
    : portKey? part = none := by
  unfold portKey?
  split
  · next kind ends => simp [isPin_of_kind kind] at notPin
  · rfl

/-- A resolved pin is unconnected just when nothing is attached to its component. -/
theorem ResolvesPart.isUnconnected_eq (wired : circuit.Wired) {nets : Table}
    {component : Component} (placed : component ∈ circuit.components) {part : Part}
    (resolves : ResolvesPart library circuit nets component part) {direction : Direction}
    (kind : component.kind = .pin direction) {resolved : ResolvedEnd}
    (ends : part.ends = [resolved])
    : resolved.isUnconnected = !component.isAttached := by
  have shapes
      : (library.ends component)[0]?
        = some (Library.pinEnd direction component.attributes.width) := by
    rw [Library.ends, kind]
    rfl
  have here := resolves.ends 0 _ resolved shapes (by rw [ends]; rfl)
  rw [Bool.eq_iff_iff, here.isUnconnected_iff, attached_iff_connects wired placed,
    Bool.not_eq_true']
  rfl

/-- A resolved pin asks for the identifier of its component if that is attached. -/
theorem ResolvesPart.portKey?_eq (wired : circuit.Wired) {nets : Table} {component : Component}
    (placed : component ∈ circuit.components) {part : Part}
    (resolves : ResolvesPart library circuit nets component part)
    : component.pinKey? = portKey? part := by
  have same := resolves.component_eq
  cases isPin : component.isPin with
  | false =>
      rw [portKey?_of_isPin_eq_false (by rw [Part.isPin, same, isPin])]
      simp [Component.pinKey?, isPin]
  | true =>
      obtain ⟨direction, kind⟩ := Component.exists_kind_of_isPin isPin
      obtain ⟨resolved, ends, -⟩ := resolves.pinShaped direction (same ▸ kind)
      have connected := resolves.isUnconnected_eq wired placed kind ends
      simp only [portKey?, same, kind, ends, connected, Component.pinKey?, isPin, boundaryName,
        Part.position]
      cases component.isAttached <;> rfl

/-- The names of all connected pins are asked for, in their order. -/
theorem filterMap_portKey? (wired : circuit.Wired) {nets : Table} {resolved : List Part}
    (resolves : List.Forall₂ (ResolvesPart library circuit nets) circuit.components resolved)
    : resolved.filterMap portKey? = circuit.pinKeys := by
  have paired :=
    forall₂_imp_mem resolves
      (S := fun component part => component.pinKey? = portKey? part)
      fun component placed _ _ resolves => resolves.portKey?_eq wired placed
  exact (filterMap_eq_of_forall₂ paired fun _ _ same => same).symm

/-- A resolved component asks for what it asks for as a part, for itself and for its circuit. -/
theorem ResolvesPart.bubbleDemand_eq (wired : circuit.Wired) {nets : Table}
    {component : Component} (placed : component ∈ circuit.components) {part : Part}
    (resolves : ResolvesPart library circuit nets component part) (netlists : List Netlist)
    (bus : Direction)
    : looseWidth bus part + innerBubbles netlists bus part
      = component.bubbleDemand bus (countOf netlists bus) := by
  have same := resolves.component_eq
  cases kind : component.kind with
  | pin direction =>
      obtain ⟨resolved, ends, width⟩ := resolves.pinShaped direction (same ▸ kind)
      have unconnected := resolves.isUnconnected_eq wired placed kind ends
      rw [looseWidth_of_kind (same ▸ kind) ends width, width, same]
      simp [innerBubbles, instantiated?, same, Component.target?, Component.bubbleDemand, kind,
        unconnected]
  | subcircuit target =>
      have notPin : part.isPin = false := by rw [Part.isPin, same, Component.isPin, kind]
      rw [looseWidth_of_notPin notPin, Nat.zero_add, innerBubbles, instantiated?, same,
        Component.target?, kind, Component.bubbleDemand, kind]
      rfl
  | _ =>
      have notPin : part.isPin = false := by rw [Part.isPin, same, Component.isPin, kind]
      rw [looseWidth_of_notPin notPin, innerBubbles, instantiated?, same, Component.target?, kind,
        Component.bubbleDemand, kind]
      rfl

/-- The parts of a circuit ask for what the circuit asks for. -/
theorem sum_bubbleDemand_eq (wired : circuit.Wired) {nets : Table} {parts : List Part}
    (resolves : List.Forall₂ (ResolvesPart library circuit nets) circuit.components parts)
    (netlists : List Netlist) (bus : Direction)
    : (parts.map (looseWidth bus)).sum + (parts.map (innerBubbles netlists bus)).sum
      = circuit.bubbleDemand bus (countOf netlists bus) := by
  rw [sum_map_add]
  refine (sum_map_eq (forall₂_imp_mem resolves fun component placed part _ resolves => ?_)).symm
  exact resolves.bubbleDemand_eq wired placed netlists bus

/-- An analyzed netlist asks for what its circuit asks for. -/
theorem Stages.bubbleDemand_eq [Arithmetic] {analyzed : Analyzed} (wired : circuit.Wired)
    (stages : Stages library circuit children registry analyzed) {netlist : Netlist}
    (same : netlist.parts = analyzed.netlist.parts) (netlists : List Netlist) (bus : Direction)
    : bubbleDemand netlists netlist bus = circuit.bubbleDemand bus (countOf netlists bus) := by
  rw [Netlist.bubbleDemand_eq, same]
  exact sum_bubbleDemand_eq wired stages.resolvesParts netlists bus

/-- The names that are taken, in lower case. -/
def Boundary.taken (boundary : Boundary) : List String := boundary.names.map Prod.fst

/-- What a pin is entered as under the name that it asks for. -/
def portClaim? (part : Part) : Option (String × String) :=
  (portKey? part).map (fun key => (key, part.component.describe))

theorem Binds.names [Arithmetic] {part after : Part} {s s' : Boundary}
    (binds : Binds circuit part s after s')
    : s'.names = (portClaim? part).toList ++ s.names := by
  cases binds with
  | other notPin => simp [portClaim?, portKey?_of_isPin_eq_false notPin]
  | endless none =>
      have nothing : portKey? part = Option.none := by
        unfold portKey?
        split
        · next ends => simp [ends] at none
        · rfl
      simp [portClaim?, nothing]
  | bubble kind ends unconnected _ => simp [portClaim?, portKey?, kind, ends, unconnected]
  | named kind ends connected fresh => simp [portClaim?, portKey?, kind, ends, connected]

/-- A bound pin takes the name that it asks for, which was free before. -/
theorem Binds.taken [Arithmetic] {part after : Part} {s s' : Boundary}
    (binds : Binds circuit part s after s')
    : s'.taken = (portKey? part).toList ++ s.taken
      ∧ ∀ key, portKey? part = some key → key ∉ s.taken := by
  refine ⟨?_, fun key asked member => ?_⟩
  · rw [Boundary.taken, binds.names, List.map_append]
    cases asked : portKey? part <;> simp [portClaim?, asked, Boundary.taken]
  · cases binds with
    | other notPin => simp [portKey?_of_isPin_eq_false notPin] at asked
    | endless none => simp [portKey?, none] at asked
    | bubble kind ends unconnected _ => simp [portKey?, kind, ends, unconnected] at asked
    | named kind ends connected fresh =>
        obtain rfl : Text.foldCase (boundaryName part) = key := by
          simpa [portKey?, kind, ends, connected] using asked
        obtain ⟨entry, listed, named⟩ := List.mem_map.mp member
        have absent := List.lookup_eq_none_iff.mp fresh entry listed
        simp [named] at absent

theorem Binds.opened [Arithmetic] {part after : Part} {s s' : Boundary}
    (binds : Binds circuit part s after s') (opened : s.allocation.isSealed = false)
    : s'.allocation.isSealed = false := by
  cases binds with
  | other | endless | named => exact opened
  | bubble _ _ _ allocated => exact BubbleAllocation.allocate_opened allocated

theorem TakesIn.opened [Arithmetic] {part after : Part} {s s' : Inventory}
    (takesIn : TakesIn circuit children part s after s') (opened : s.allocation.isSealed = false)
    : s'.allocation.isSealed = false := by
  cases takesIn with
  | other | clock => exact opened
  | subcircuit _ _ allocated => exact BubbleAllocation.allocateAll_opened allocated

/-- Bound pins have taken different names, by induction on the parts. -/
theorem nodup_taken [Arithmetic] {parts bound : List Part} {s s' : Boundary}
    (binds : Threaded (Binds circuit) parts s bound s') (distinct : s.taken.Nodup)
    : ((parts.filterMap portKey?).reverse ++ s.taken).Nodup := by
  induction binds with
  | nil => exact distinct
  | @cons part parts s _ middle _ _ head _ ih =>
      obtain ⟨taken, fresh⟩ := head.taken
      rw [taken] at ih
      cases asked : portKey? part with
      | none =>
          rw [asked] at ih
          rw [List.filterMap_cons, asked]
          exact ih distinct
      | some key =>
          rw [asked] at ih
          have rest := ih (List.nodup_cons.mpr ⟨fresh key asked, distinct⟩)
          rw [List.filterMap_cons, asked, List.reverse_cons, List.append_assoc]
          exact rest

-----------------------------------------------------------------------------------------
-- The whole circuit
-----------------------------------------------------------------------------------------

/-- What is analyzed is consistent. -/
theorem Stages.consistent [Arithmetic] {analyzed : Analyzed} (wired : circuit.Wired)
    (stages : Stages library circuit children registry analyzed)
    : circuit.Consistent library where
  joins := by
    obtain ⟨draft, collected, -⟩ := bareNets_collected stages.formed
    exact collected.equalWidths
  widths := by
    intro component placed endIndex shape connection declared connected
    obtain ⟨position, found⟩ := List.getElem?_of_mem placed
    obtain ⟨part, -, resolves⟩ := forall₂_getElem? stages.resolvesParts found
    have inside : endIndex < part.ends.length := by
      rw [resolves.length_eq]
      exact (List.getElem?_eq_some_iff.mp declared).1
    have resolved := resolves.ends endIndex shape _ declared (List.getElem?_eq_getElem inside)
    exact resolved.connected connection connected
  names := by
    have distinct := nodup_taken stages.binds List.nodup_nil
    rw [filterMap_portKey? wired (stages.resolves.imp fun _ _ resolves => resolves.1)] at distinct
    rw [Boundary.taken, List.map_nil, List.append_nil] at distinct
    exact List.nodup_reverse.1 distinct

end Netlist

end SchematicHdl
