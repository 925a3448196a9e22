import SchematicHdl.Proofs.Bubble
import SchematicHdl.Proofs.Netlist.Stages

/-! What a netlist holds of its parts once the analysis is complete: resolved ends of the shapes
that the components have, names or bubbles for the boundary pins, bubbles and clock trees of the
instantiated circuits, and the trees of the clock sources.
-/

namespace SchematicHdl

/-- The circuit that a component is an instance of. -/
def Component.target? (component : Component) : Option Nat :=
  match component.kind with
  | .subcircuit target => some target.position
  | _ => none

theorem Component.target?_eq_none {component : Component}
    (other : component.category ≠ .subcircuit)
    : component.target? = none := by
  unfold target?
  split
  · next target kind => exact absurd (by simp [category, kind]) other
  · rfl

theorem Component.target?_eq_some {component : Component} {position : Nat}
    : component.target? = some position
      ↔ ∃ target, component.kind = .subcircuit target ∧ target.position = position := by
  unfold target?
  split
  · next target kind => simp [kind]
  · next other =>
      simp only [reduceCtorEq, false_iff, not_exists, not_and]
      exact fun target kind => absurd kind (other target)

theorem Component.exists_kind_of_isPin {component : Component} (pin : component.isPin = true)
    : ∃ direction, component.kind = .pin direction := by
  unfold isPin at pin
  split at pin
  · exact ⟨_, ‹_›⟩
  · cases pin

namespace Netlist

open Net (Point Table)
open Outcome

-----------------------------------------------------------------------------------------
-- Ascending lists
-----------------------------------------------------------------------------------------

@[simp] theorem mem_insertAscending {n m : Nat} {ns : List Nat}
    : m ∈ insertAscending n ns ↔ m = n ∨ m ∈ ns := by
  induction ns with
  | nil => simp [insertAscending]
  | cons head rest ih =>
      simp only [insertAscending]
      split
      · simp
      · split
        · next same => simp [same]
        · simp only [List.mem_cons, ih]
          exact or_left_comm

theorem mem_foldl_insertAscending {m : Nat} {ns ms : List Nat}
    : m ∈ ns.foldl (fun trees tree => insertAscending tree trees) ms ↔ m ∈ ns ∨ m ∈ ms := by
  induction ns generalizing ms with
  | nil => simp
  | cons n rest ih =>
      simp only [List.foldl_cons, ih, mem_insertAscending, List.mem_cons]
      exact ⟨fun h => h.elim (.inl ∘ .inr) (fun h => h.elim (.inl ∘ .inl) .inr),
        fun h => h.elim (fun h => h.elim (.inr ∘ .inl) .inl) (.inr ∘ .inr)⟩

/-- A number is put in its place, by induction on the list. -/
theorem insertAscending_ascending {n : Nat} {ns : List Nat}
    (ascending : ns.Pairwise (· < ·))
    : (insertAscending n ns).Pairwise (· < ·) := by
  induction ns with
  | nil => exact List.pairwise_singleton _ _
  | cons m rest ih =>
      obtain ⟨above, ascends⟩ := List.pairwise_cons.mp ascending
      simp only [insertAscending]
      split
      · next before =>
          refine List.pairwise_cons.mpr ⟨fun k member => ?_, ascending⟩
          rcases List.mem_cons.mp member with rfl | later
          · exact before
          · exact Nat.lt_trans before (above k later)
      · split
        · exact ascending
        · next notBefore differs =>
            refine List.pairwise_cons.mpr ⟨fun k member => ?_, ih ascends⟩
            rcases mem_insertAscending.mp member with rfl | listed
            · omega
            · exact above k listed

theorem foldl_insertAscending_ascending {ns ms : List Nat}
    (ascending : ms.Pairwise (· < ·))
    : (ns.foldl (fun trees tree => insertAscending tree trees) ms).Pairwise (· < ·) := by
  induction ns generalizing ms with
  | nil => exact ascending
  | cons n rest ih => exact ih (insertAscending_ascending ascending)

-----------------------------------------------------------------------------------------
-- What is known of a part
-----------------------------------------------------------------------------------------

/-- An end of a part has the shape that its component gives it, and lands on bits of root nets. -/
structure Attached (nets : Table) (shape : EndShape) (resolved : ResolvedEnd) : Prop where
  direction_eq : resolved.direction = shape.direction
  width_eq : resolved.width = shape.width
  rooted : ∀ point, some point ∈ resolved.points → nets.Rooted point

/-- What becomes of a boundary pin: a bubble if nothing is connected to it, and a named port
otherwise.
-/
inductive PinFate (direction : Direction) (part : Part) (resolved : ResolvedEnd) : Prop
  | bubble (unconnected : resolved.isUnconnected = true) (unnamed : part.portName = none)
    {range : Option BubbleRange} (bubbles : part.bubbles = BubbleRanges.none.set direction range)
    (reserved : Reserved resolved.width range)
  | named (connected : resolved.isUnconnected = false)
    (name : part.portName = some (boundaryName part)) (bubbles : part.bubbles = .none)

/-- A netlist holds a part for a component. -/
structure Holds (library : Library) (children : List Netlist) (netlist : Netlist)
    (component : Component) (part : Part)
    : Prop where
  component_eq : part.component = component
  ends : List.Forall₂ (Attached netlist.nets) (library.ends component) part.ends
  pin
    : ∀ direction,
        component.kind = .pin direction
        → ∃ resolved,
            part.ends = [resolved] ∧ PinFate direction part resolved
  notPin : component.isPin = false → part.portName = none
  subcircuit
    : ∀ target,
        component.kind = .subcircuit target
        → ∃ child,
            ofCircuit? children target.position = some child
            ∧ (∀ bus, Reserved (child.bubbles.get bus) (part.bubbles.get bus))
            ∧ child.clockTrees ⊆ netlist.clockTrees
  clock
    : ∀ tree, part.clockTree = some tree → component.kind = .clock ∧ tree ∈ netlist.clockTrees

-----------------------------------------------------------------------------------------
-- One stage after another
-----------------------------------------------------------------------------------------

/-- What the binding of the pins does to a part. -/
structure Bound (part after : Part) : Prop where
  same : SameEnds part after
  clockTree_eq : after.clockTree = part.clockTree
  pin
    : ∀ direction resolved,
        Unbound part
        → part.component.kind = .pin direction
        → part.ends = [resolved]
        → PinFate direction after resolved
  notPin : part.isPin = false → after = part

/-- What the taking in of instances and clock sources does to a part, up to the inventory in the
end.
-/
structure Took (children : List Netlist) (part after : Part) (last : Inventory) : Prop where
  same : SameEnds part after
  portName_eq : after.portName = part.portName
  pin : part.isPin = true → after = part
  subcircuit
    : ∀ target,
        part.component.kind = .subcircuit target
        → ∃ child,
            ofCircuit? children target.position = some child
            ∧ (∀ bus, Reserved (child.bubbles.get bus) (after.bubbles.get bus))
            ∧ child.clockTrees ⊆ last.clockTrees
  clock
    : ∀ tree,
        part.clockTree = none
        → after.clockTree = some tree
        → part.component.kind = .clock ∧ tree ∈ last.clockTrees

theorem isPin_of_kind {part : Part} {direction : Direction}
    (kind : part.component.kind = .pin direction)
    : part.isPin = true := by
  simp [Part.isPin, Component.isPin, kind]

theorem kind_of_category {component : Component} {direction : Direction}
    (category : component.category = .pin direction)
    : component.kind = .pin direction := by
  unfold Component.category at category
  split at category <;> simp_all

theorem kind_of_clockSource {component : Component} (category : component.category = .clockSource)
    : component.kind = .clock := by
  unfold Component.category at category
  split at category <;> simp_all

theorem isPin_of_category {part : Part} {direction : Direction}
    (category : part.category = .pin direction)
    : part.isPin = true :=
  isPin_of_kind (kind_of_category category)

theorem isPin_eq_false {part : Part} (other : ∀ direction, part.category ≠ .pin direction)
    : part.isPin = false := by
  unfold Part.isPin Component.isPin
  split
  · next direction kind =>
      exact absurd (by simp [Part.category, Component.category, kind]) (other direction)
  · rfl

/-- The fate of a pin, by cases on what is done to it. -/
theorem Binds.bound [Arithmetic] {circuit : Circuit} {part after : Part} {s s' : Boundary}
    (binds : Binds circuit part s after s')
    : Bound part after := by
  refine ⟨binds.sameEnds, by cases binds <;> rfl, fun direction resolved fresh kind ends => ?_,
    fun notPin => ?_⟩
  · cases binds with
    | other notPin => simp [isPin_of_kind kind] at notPin
    | endless none => simp [ends] at none
    | bubble sameKind sameEnds unconnected allocated =>
        obtain rfl : direction = _ := by simpa [kind] using sameKind
        obtain ⟨rfl, -⟩ := List.cons.inj (ends.symm.trans sameEnds)
        exact .bubble unconnected fresh.2.2 (by rw [fresh.1])
          (BubbleAllocation.allocate_reserved allocated)
    | named sameKind sameEnds connected _ =>
        obtain ⟨rfl, -⟩ := List.cons.inj (ends.symm.trans sameEnds)
        exact .named connected rfl fresh.1
  · cases binds with
    | other | endless => rfl
    | bubble kind => simp [isPin_of_kind kind] at notPin
    | named kind => simp [isPin_of_kind kind] at notPin

/-- Clock trees that are taken in stay. -/
theorem TakesIn.clockTrees_subset [Arithmetic] {circuit : Circuit} {children : List Netlist}
    {part after : Part} {s s' : Inventory} (takesIn : TakesIn circuit children part s after s')
    : s.clockTrees ⊆ s'.clockTrees := by
  cases takesIn with
  | other => exact List.Subset.refl _
  | subcircuit => exact fun _ member => mem_foldl_insertAscending.2 (.inr member)
  | clock => exact fun _ member => mem_insertAscending.2 (.inr member)

/-- What is taken in with a part, by cases on what the part is. -/
theorem TakesIn.took [Arithmetic] {circuit : Circuit} {children : List Netlist} {part after : Part}
    {s s' last : Inventory} (takesIn : TakesIn circuit children part s after s')
    (within : s'.clockTrees ⊆ last.clockTrees)
    : Took children part after last := by
  refine ⟨takesIn.sameEnds, by cases takesIn <;> rfl, fun pin => ?_, fun target kind => ?_,
    fun tree fresh clocked => ?_⟩
  · cases takesIn with
    | other => rfl
    | subcircuit kind => simp [Part.isPin, Component.isPin, kind] at pin
    | clock kind => simp [Part.isPin, Component.isPin, kind] at pin
  · cases takesIn with
    | other notInstance => simp [Part.category, Component.category, kind] at notInstance
    | subcircuit sameKind analyzed allocated =>
        obtain rfl : target = _ := by simpa [kind] using sameKind
        refine ⟨_, analyzed, BubbleAllocation.allocateAll_reserved allocated, fun tree member => ?_⟩
        exact within (mem_foldl_insertAscending.2 (.inl member))
    | clock sameKind => simp [kind] at sameKind
  · cases takesIn with
    | other => simp [fresh] at clocked
    | subcircuit => simp [fresh] at clocked
    | clock kind =>
        obtain rfl := Option.some.inj clocked
        exact ⟨kind, within (mem_insertAscending.2 (.inl rfl))⟩

-----------------------------------------------------------------------------------------
-- All parts
-----------------------------------------------------------------------------------------

/-- A part after both stages. -/
def Settled (children : List Netlist) (last : Inventory) (part after : Part) : Prop :=
  ∃ middle, Bound part middle ∧ Took children middle after last

namespace Stages

variable {library : Library} {circuit : Circuit} {children : List Netlist}
  {registry : ClockRegistry} {analyzed : Analyzed}

theorem bounds [Arithmetic] (stages : Stages library circuit children registry analyzed)
    : List.Forall₂ Bound stages.resolved stages.bound :=
  stages.binds.forall₂ fun _ _ _ _ _ binds => binds.bound

theorem tooks [Arithmetic] (stages : Stages library circuit children registry analyzed)
    : List.Forall₂ (fun part after => Took children part after stages.inventory) stages.bound
        stages.parts :=
  (stages.takes.forall₂_settled (fun s s' => s.clockTrees ⊆ s'.clockTrees)
    (fun _ => List.Subset.refl _) List.Subset.trans (fun _ _ _ _ _ takes => takes.clockTrees_subset)
    (Took children) (fun _ _ _ _ _ _ takes within => takes.took within)).2

theorem settles [Arithmetic] (stages : Stages library circuit children registry analyzed)
    : List.Forall₂
        (Settled children stages.inventory) stages.resolved stages.parts :=
  forall₂_trans stages.bounds stages.tooks fun bound took => ⟨_, bound, took⟩

theorem nets_rooted [Arithmetic] (stages : Stages library circuit children registry analyzed)
    {bit : WireBit}
    {point : Point} (canonical : stages.bare.canonical? bit = some point)
    : analyzed.netlist.nets.Rooted point := by
  obtain ⟨draft, collected, frozen⟩ := bareNets_collected stages.formed
  rw [← Table.rooted_bare, stages.bare_nets, frozen, Table.bare_freeze]
  exact collected.canonical?_rooted (frozen ▸ canonical)

/-- Every connected bit of a resolved end has come from a wire bit. -/
theorem attached [Arithmetic] (stages : Stages library circuit children registry analyzed)
    {component : Component} {part : Part}
    (resolves : ResolvesPart library circuit stages.bare component part)
    : List.Forall₂ (Attached analyzed.netlist.nets) (library.ends component) part.ends := by
  refine List.forall₂_iff_get.mpr ⟨resolves.length_eq.symm, fun i inside inside' => ?_⟩
  have resolved :=
    resolves.ends i _ _ (List.getElem?_eq_getElem inside) (List.getElem?_eq_getElem inside')
  refine ⟨resolved.direction_eq, resolved.width_eq, fun point listed => ?_⟩
  obtain ⟨bit, found⟩ := List.getElem?_of_mem listed
  have atBit := resolved.point_eq bit
  simp only [List.get_eq_getElem] at found
  rw [found, Option.join_some, eq_comm, Option.bind_eq_some_iff] at atBit
  obtain ⟨wireBit, -, canonical⟩ := atBit
  exact stages.nets_rooted canonical

/-- The parts of an analyzed netlist, each for its component. -/
theorem holds [Arithmetic] (stages : Stages library circuit children registry analyzed)
    : List.Forall₂ (Holds library children analyzed.netlist) circuit.components
        analyzed.netlist.parts := by
  have parts : analyzed.netlist.parts = stages.parts := by rw [stages.netlist_eq]
  have trees : analyzed.netlist.clockTrees = stages.inventory.clockTrees := by
    rw [stages.netlist_eq]
  rw [parts]
  refine
    forall₂_trans stages.resolves stages.settles
      fun {component resolved after} resolves later => ?_
  obtain ⟨middle, bound, took⟩ := later
  obtain ⟨resolves, unbound⟩ := resolves
  have kept := (resolves.sameEnds bound.same).sameEnds took.same
  have component_eq := resolves.component_eq
  have middle_eq : middle.component = component := bound.same.1.trans component_eq
  refine
    {
      component_eq := kept.component_eq,
      ends := stages.attached kept,
      pin := fun direction kind => ?_,
      notPin := fun notPin => ?_,
      subcircuit := fun target kind => ?_,
      clock := fun tree clocked => ?_
    }
  · have one : after.ends.length = 1 := by
      rw [kept.length_eq]
      simp [Library.ends, kind]
    obtain ⟨resolvedEnd, ends⟩ := List.length_eq_one_iff.mp one
    have pin : middle.isPin = true := isPin_of_kind (middle_eq ▸ kind)
    have fate :=
      bound.pin direction resolvedEnd unbound (component_eq ▸ kind)
        (bound.same.2.symm.trans (took.same.2.symm.trans ends))
    rw [took.pin pin] at ends ⊢
    exact ⟨resolvedEnd, ends, fate⟩
  · have plain : resolved.isPin = false := by simpa [Part.isPin, component_eq] using notPin
    rw [took.portName_eq, bound.notPin plain]
    exact unbound.2.2
  · rw [trees]
    exact took.subcircuit target (middle_eq ▸ kind)
  · have fresh : middle.clockTree = none := bound.clockTree_eq.trans unbound.2.1
    rw [trees, ← middle_eq]
    exact took.clock tree fresh clocked

/-- The clock trees of a circuit are listed in ascending order, each once. -/
theorem clockTrees_ascending [Arithmetic]
    (stages : Stages library circuit children registry analyzed)
    : analyzed.netlist.clockTrees.Pairwise (· < ·) := by
  rw [stages.netlist_eq]
  refine stages.takes.keeps (P := fun s => s.clockTrees.Pairwise (· < ·)) ?_ .nil
  intro part s after s' takesIn ascending
  cases takesIn with
  | other => exact ascending
  | subcircuit => exact foldl_insertAscending_ascending ascending
  | clock => exact insertAscending_ascending ascending

end Stages

end Netlist

end SchematicHdl
