import SchematicHdl.Proofs.Netlist.Consistency

/-! Why the analysis of a circuit fails. If its instances are analyzed before it, a circuit is
analyzed unless it is inconsistent, or asks for more than words count in a build that checks
overflow. What is reported tells which of the two it is.
-/

namespace SchematicHdl

open Net (HasBit Table Draft)
open Outcome

-----------------------------------------------------------------------------------------
-- Causes of failure
-----------------------------------------------------------------------------------------

/-- The cause lies in a single circuit, not in what it instantiates. -/
def GenerationError.IsLocal (error : GenerationError) : Prop :=
  ∀ circuit steps, error ≠ .recursiveCircuit circuit steps

/-- The cause lies in the design, not in the generator. -/
def GenerationError.BlamesDesign (error : GenerationError) : Prop :=
  ∀ fault, error ≠ .internal fault

/-- Two things in the circuit that are connected differ in width, or two connected pins of it have
identifiers that are the same but for letter case.
-/
inductive Circuit.Conflict (library : Library) (circuit : Circuit) : GenerationError → Prop
  | joins {a b name conflict expected found} (joined : (a, b) ∈ circuit.joins)
    (differ : circuit.wires[a]? ≠ circuit.wires[b]?)
    : circuit.Conflict library (.widthMismatch name conflict expected found)
  | ends {component endIndex shape connection name conflict expected found}
    (placed : component ∈ circuit.components)
    (declared : (library.ends component)[endIndex]? = some shape)
    (connected : component.connection? endIndex = some connection)
    (differ : Netlist.connectionWidth circuit connection ≠ shape.width)
    : circuit.Conflict library (.widthMismatch name conflict expected found)
  | pins {first second key} (order : [first, second].Sublist circuit.components)
    (firstKey : first.pinKey? = some key) (secondKey : second.pinKey? = some key)
    : circuit.Conflict library
        (.identifierCollision second.identifier circuit.name first.describe second.describe)

/-- The circuit has more than words count: the data ends of a component, or the bubbles on a bus,
where every circuit has a count of its own on each bus.
-/
def Circuit.Overflows (circuit : Circuit) (count : Direction → Nat → Nat) : Prop :=
  (∃ component ∈ circuit.components, ¬ component.CountsEnds)
  ∨ ∃ bus, Word.size ≤ circuit.bubbleDemand bus (count bus)

/-- Why the analysis of a circuit fails after all that it instantiates. -/
inductive Netlist.Fault [Arithmetic] (library : Library) (circuit : Circuit)
    (children : List Netlist)
    : GenerationError → Prop
  | conflict {cause} (conflict : circuit.Conflict library cause)
    : Netlist.Fault library circuit children cause
  | overflow {operation} (checks : Arithmetic.checksOverflow = true)
    (excess : circuit.Overflows (countOf children))
    : Netlist.Fault library circuit children (.overflow operation)

namespace Circuit.Conflict

variable {library : Library} {circuit : Circuit} {cause : GenerationError}

theorem isLocal (conflict : circuit.Conflict library cause) : cause.IsLocal := by
  cases conflict <;> exact nofun

theorem blamesDesign (conflict : circuit.Conflict library cause) : cause.BlamesDesign := by
  cases conflict <;> exact nofun

/-- A consistent circuit has no conflict, by cases on what is in conflict. -/
theorem not_consistent (conflict : circuit.Conflict library cause)
    : ¬ circuit.Consistent library := by
  intro consistent
  cases conflict with
  | joins joined differ => exact differ (consistent.joins _ _ joined)
  | ends placed declared connected differ =>
      exact differ (consistent.widths _ placed _ _ _ declared connected)
  | pins order firstKey secondKey =>
      have twice := (order.filterMap Component.pinKey?).nodup consistent.names
      simp [firstKey, secondKey] at twice

end Circuit.Conflict

namespace Netlist

variable {library : Library} {circuit : Circuit} {children : List Netlist}
  {registry : ClockRegistry}

-----------------------------------------------------------------------------------------
-- Nets and ends
-----------------------------------------------------------------------------------------

/-- Wires that are there are joined unless their widths differ. -/
theorem failsBy_join (wired : circuit.Wired) {a b : Nat} (joined : (a, b) ∈ circuit.joins)
    {draft : Draft} (kept : draft.widths = circuit.wires)
    : FailsBy (circuit.Conflict library) (draft.join a b)
      ∧ ∀ next, draft.join a b = .ok next → next.widths = circuit.wires := by
  refine ⟨?_, fun next done => ?_⟩
  · obtain ⟨insideA, insideB⟩ := wired.joins a b joined
    have known {wire : Nat} (inside : wire < circuit.wires.length)
        : draft.widthOf wire = .ok circuit.wires[wire] := by
      rw [Draft.widthOf, kept, List.getElem?_eq_getElem inside]
    refine failsBy_bind (failsBy_of_ok (known insideA)) fun width first => ?_
    refine failsBy_bind (failsBy_of_ok (known insideB)) fun found second => ?_
    split
    · next differ =>
        refine failsBy_error (.joins joined ?_)
        rw [known insideA, Except.ok.injEq] at first
        rw [known insideB, Except.ok.injEq] at second
        rw [List.getElem?_eq_getElem insideA, List.getElem?_eq_getElem insideB, first, second]
        exact fun same => differ (Option.some.inj same)
    · exact failsBy_ok
  · obtain ⟨_, -, -, rfl⟩ := Draft.join_eq_ok.1 done
    exact kept

/-- The nets of a wired circuit are formed unless the widths of joined wires differ. -/
theorem failsBy_bareNets (wired : circuit.Wired)
    : FailsBy (circuit.Conflict library) (bareNets circuit) := by
  have joins :=
    failsBy_foldlM (I := fun draft : Draft => draft.widths = circuit.wires)
      (b := Draft.ofWidths circuit.name circuit.wires) rfl
      fun wires member _ kept =>
        (failsBy_join wired member kept : FailsBy (circuit.Conflict library) _ ∧ _)
  refine failsBy_bind joins.1 fun joined joinAll => ?_
  obtain ⟨spliced, spliceAll, -⟩ :=
    exists_foldlM_ok (f := fun draft bits => Draft.splice draft bits.1 bits.2)
      (I := fun draft => draft.widths = circuit.wires) (joins.2 joined joinAll)
      fun bits member _ kept =>
        have has := wired.splices _ _ member
        Draft.exists_splice kept has.1 has.2
  exact failsBy_bind (failsBy_of_ok spliceAll) fun _ _ => failsBy_ok

/-- An end is resolved unless it differs in width from what is attached to it. -/
theorem failsBy_resolveEnd (wired : circuit.Wired) {nets : Table}
    (formed : bareNets circuit = .ok nets) {component : Component}
    (placed : component ∈ circuit.components) {endIndex : Nat} {shape : EndShape}
    (declared : (library.ends component)[endIndex]? = some shape)
    : FailsBy (circuit.Conflict library)
        (resolveEnd circuit nets component endIndex shape) := by
  cases connected : component.connection? endIndex with
  | none =>
      rw [resolveEnd, connected]
      exact failsBy_ok
  | some connection =>
      by_cases width : connectionWidth circuit connection = shape.width
      · have attached (other : Connection) (there : component.connection? endIndex = some other)
            : circuit.Offers other ∧ connectionWidth circuit other = shape.width := by
          obtain rfl := Option.some.inj (connected.symm.trans there)
          exact ⟨wired.attached component placed _ (mem_of_lookup_eq_some connected), width⟩
        obtain ⟨resolved, done⟩ := exists_resolveEnd formed attached
        exact failsBy_of_ok done
      · rw [resolveEnd, connected]
        cases connection with
        | wire wire =>
            refine failsBy_bind ?_ fun _ _ => failsBy_ok
            have differ : circuit.wires.getD wire 0 ≠ shape.width := width
            simp only [wirePoints, if_pos differ]
            exact failsBy_error (.ends placed declared connected width)
        | bits bits =>
            refine failsBy_bind ?_ fun _ _ => failsBy_ok
            have differ : bits.length ≠ shape.width := width
            simp only [bitPoints, if_pos differ]
            exact failsBy_error (.ends placed declared connected width)

/-- A component is resolved unless one of its ends is in conflict, or its ends are not counted. -/
theorem failsBy_resolvePart [Arithmetic] (wired : circuit.Wired) {nets : Table}
    (formed : bareNets circuit = .ok nets) {component : Component}
    (placed : component ∈ circuit.components)
    : FailsBy (Fault library circuit children) (resolvePart library circuit nets component) := by
  refine failsBy_bind (fun cause failed => ?_) fun shapes laidOut => ?_
  · cases outcome : library.layOut component with
    | ok shapes =>
        rw [outcome] at failed
        cases failed
    | error operation =>
        rw [outcome] at failed
        obtain rfl := Except.error.inj failed
        obtain ⟨checks, uncounted⟩ := Library.not_countsEnds_of_error outcome
        exact .overflow checks (.inl ⟨component, placed, uncounted⟩)
  · obtain ⟨-, rfl⟩ := Library.layOut_eq_ok.1 (mapError_eq_ok.1 laidOut)
    refine failsBy_bind (failsBy_mapM fun entry member => ?_) fun _ _ => failsBy_ok
    have declared := List.mem_zipIdx_iff_getElem?.mp member
    exact fun cause failed =>
      .conflict (failsBy_resolveEnd wired formed placed declared cause failed)

-----------------------------------------------------------------------------------------
-- Pins and instances
-----------------------------------------------------------------------------------------

/-- What one entry after others asks for, all of them ask for. -/
theorem le_sum_map_append {α : Type} (before : List α) (x : α) (after : List α) (asked : α → Nat)
    : (before.map asked).sum + asked x ≤ ((before ++ x :: after).map asked).sum := by
  simp only [List.map_append, List.map_cons, List.sum_append, List.sum_cons]
  omega

/-- A part is bound while the counts are not final, unless the name that it asks for is taken, or it
leaves no room for itself on its bus.
-/
theorem failsBy_bindPart [Arithmetic] (circuit : Circuit) {part : Part} (shaped : PinShaped part)
    {s : Boundary} (opened : s.allocation.isSealed = false)
    : FailsBy
        (fun cause =>
          (∃ key first,
              portKey? part = some key
              ∧ s.names.lookup key = some first
              ∧ cause
                = .identifierCollision (boundaryName part) circuit.name first
                    part.component.describe)
          ∨ ∃ bus,
              Arithmetic.checksOverflow = true
              ∧ Word.size ≤ s.allocation.counts.get bus + looseWidth bus part
              ∧ cause = .overflow .add)
        ((bindPart circuit part).run s) := by
  refine Ends.failsBy (?_ : Ends _ _ (fun _ _ => True) _)
  unfold bindPart
  split
  · next direction kind =>
    refine ends_after (run_get_eq_ok.2 rfl) ?_
    split
    · exact ends_of_ok (run_pure_eq_ok.2 rfl) trivial
    · next resolved rest ends =>
      obtain ⟨only, sole, width⟩ := shaped direction kind
      obtain ⟨rfl, rfl⟩ := List.cons.inj (ends.symm.trans sole)
      split
      · next unconnected =>
        refine ends_bind (ends_lift_of_failsBy ?_) ?_
        · intro cause failed
          obtain ⟨checks, excess, rfl⟩ := BubbleAllocation.allocate_overflows opened failed
          refine .inr ⟨direction, checks, ?_, rfl⟩
          rwa [looseWidth_of_kind kind ends width, if_pos ⟨rfl, unconnected⟩]
        · exact fun _ _ _ => ends_of_ok rfl trivial
      · next connected =>
        simp only
        split
        · next first found =>
          have asked : portKey? part = some (Text.foldCase (boundaryName part)) := by
            simp [portKey?, kind, ends, connected]
          exact ends_of_error rfl (.inl ⟨_, first, asked, found, rfl⟩)
        · exact ends_of_ok rfl trivial
  · exact ends_of_ok (run_pure_eq_ok.2 rfl) trivial

/-- A part is taken in while the counts are not final, if its circuit is analyzed, unless the
bubbles of the circuit leave a bus.
-/
theorem failsBy_takeIn [Arithmetic] {part : Part}
    (analyzed
      : ∀ target,
          part.component.kind = .subcircuit target
          → (ofCircuit? children target.position).isSome)
    {s : Inventory} (opened : s.allocation.isSealed = false)
    : FailsBy
        (fun cause =>
          ∃ bus,
            Arithmetic.checksOverflow = true
            ∧ Word.size ≤ s.allocation.counts.get bus + innerBubbles children bus part
            ∧ cause = .overflow .add)
        ((takeIn circuit children part).run s) := by
  refine Ends.failsBy (ends_after (run_get_eq_ok.2 rfl) (?_ : Ends _ _ (fun _ _ => True) _))
  split
  · next target kind =>
    obtain ⟨child, found⟩ := Option.isSome_iff_exists.mp (analyzed target kind)
    simp only [found]
    refine ends_bind (ends_lift_of_failsBy ?_) ?_
    · intro cause failed
      obtain ⟨checks, ⟨bus, excess⟩, rfl⟩ := BubbleAllocation.allocateAll_overflows opened failed
      refine ⟨bus, checks, ?_, rfl⟩
      rw [innerBubbles, instantiated?, Component.target?, kind]
      simpa [found] using excess
    · exact fun _ _ _ => ends_of_ok rfl trivial
  · exact ends_of_ok rfl trivial
  · exact ends_of_ok (run_pure_eq_ok.2 rfl) trivial

/-- What the pins bound so far are entered as, by induction on the parts. -/
theorem names_of_binds [Arithmetic] {parts bound : List Part} {s s' : Boundary}
    (binds : Threaded (Binds circuit) parts s bound s')
    : s'.names = (parts.filterMap portClaim?).reverse ++ s.names := by
  induction binds with
  | nil => rfl
  | @cons part _ _ _ _ _ _ head _ ih =>
      rw [ih, head.names, List.filterMap_cons]
      cases portClaim? part <;> simp

section Resolved

variable [Arithmetic] {nets : Table} {resolved : List Part}

/-- Binding pins leaves the counts open. -/
theorem opened_of_binds {parts bound : List Part} {boundary : Boundary}
    (binds : Threaded (Binds circuit) parts ⟨.start circuit.name, []⟩ bound boundary)
    : boundary.allocation.isSealed = false :=
  binds.keeps (P := fun boundary => boundary.allocation.isSealed = false)
    (fun _ _ _ _ step opened => step.opened opened) rfl

/-- The pins of a circuit are named unless two of them ask for one name, or their widths leave a
bus.
-/
theorem failsBy_bindParts (wired : circuit.Wired)
    (resolves
      : List.Forall₂
          (fun component part => ResolvesPart library circuit nets component part ∧ Unbound part)
          circuit.components resolved)
    : FailsBy (Fault library circuit children)
        ((resolved.mapM (bindPart circuit)).run ⟨.start circuit.name, []⟩) := by
  intro cause failed
  obtain ⟨before, part, after, bound, boundary, rfl, succeeded, here⟩ := mapM_run_eq_error failed
  have binds := (mapM_run_eq_ok.1 succeeded).imp fun _ _ _ _ => bindPart_binds
  have shaped := shaped_of_resolves resolves
  have ends := failsBy_bindPart circuit (shaped part (by simp)).1 (opened_of_binds binds)
  have resolves := resolves.imp fun _ _ resolves => resolves.1
  rcases ends cause here with ⟨key, first, asked, found, rfl⟩ | ⟨bus, checks, excess, rfl⟩
  · -- the name is that of a pin before, and the components ask for what their parts ask for
    have entry := mem_of_lookup_eq_some found
    rw [names_of_binds binds, List.append_nil, List.mem_reverse] at entry
    obtain ⟨earlier, listed, entered⟩ := List.mem_filterMap.mp entry
    obtain ⟨_, known, same⟩ := Option.map_eq_some_iff.mp entered
    obtain ⟨sameKey, rfl⟩ := Prod.mk.inj same
    have components : circuit.components = (before ++ part :: after).map Part.component := by
      have same := resolves.imp fun _ _ resolves => resolves.component_eq.symm
      rwa [← List.forall₂_map_right_iff, List.forall₂_eq_eq_eq] at same
    have keys (asking : Part) (held : asking ∈ before ++ part :: after)
        : asking.component.pinKey? = portKey? asking := by
      obtain ⟨component, placed, resolves⟩ := forall₂_mem_right resolves held
      rw [resolves.component_eq]
      exact resolves.portKey?_eq wired placed
    refine
      .conflict (.pins (?_ : [earlier.component, part.component].Sublist circuit.components)
        (?_ : _ = some key) ?_)
    · rw [components]
      exact
        ((List.singleton_sublist.mpr listed).append
          (List.cons_sublist_cons.mpr (List.nil_sublist after))).map Part.component
    · rw [keys earlier (List.mem_append_left _ listed), known, sameKey]
    · rw [keys part (by simp), asked]
  · -- the pins bound so far are counted exactly, so all pins ask for too much
    have packs :=
      packs_of_binds binds (fun asking held => shaped asking (List.mem_append_left _ held)) bus
    have within := packs.overflows checks excess
    have asked := le_sum_map_append before part after (looseWidth bus)
    refine .overflow checks (.inr ⟨bus, ?_⟩)
    rw [← sum_bubbleDemand_eq wired resolves children bus]
    omega

/-- The parts of a circuit are taken in after the circuits that it instantiates, unless their
bubbles leave a bus.
-/
theorem failsBy_takes (wired : circuit.Wired)
    (below
      : ∀ component ∈ circuit.components,
          ∀ target,
            component.kind = .subcircuit target → (ofCircuit? children target.position).isSome)
    (resolves
      : List.Forall₂
          (fun component part => ResolvesPart library circuit nets component part ∧ Unbound part)
          circuit.components resolved)
    {bound : List Part} {boundary : Boundary}
    (binds : Threaded (Binds circuit) resolved ⟨.start circuit.name, []⟩ bound boundary)
    : FailsBy (Fault library circuit children)
        ((bound.mapM (takeIn circuit children)).run ⟨boundary.allocation, [], registry⟩) := by
  intro cause failed
  obtain ⟨before, part, after, parts, inventory, rfl, succeeded, here⟩ := mapM_run_eq_error failed
  have takes := (mapM_run_eq_ok.1 succeeded).imp fun _ _ _ _ => takeIn_takesIn
  have same := binds.forall₂ fun _ _ _ _ _ binds => binds.bound
  have opened : inventory.allocation.isSealed = false :=
    takes.keeps (P := fun inventory => inventory.allocation.isSealed = false)
      (fun _ _ _ _ step opened => step.opened opened) (opened_of_binds binds)
  have analyzed (target : CircuitRef) (kind : part.component.kind = .subcircuit target)
      : (ofCircuit? children target.position).isSome := by
    obtain ⟨_, listed, kept⟩ :=
      forall₂_mem_right same (List.mem_append_right before List.mem_cons_self)
    obtain ⟨component, placed, resolves⟩ := forall₂_mem_right resolves listed
    refine below component placed target ?_
    rw [← resolves.1.component_eq, ← kept.same.1, kind]
  obtain ⟨bus, checks, excess, rfl⟩ := failsBy_takeIn analyzed opened cause here
  have shaped := shaped_of_resolves resolves
  have none := bubbles_none_of_bounds same shaped
  have front := packs_of_binds binds shaped bus
  have back :=
    packs_of_takes takes (fun part listed => none part (List.mem_append_left _ listed)) bus
  have within := (front.trans back).overflows checks excess
  have asked := le_sum_map_append before part after (innerBubbles children bus)
  have inner
      : (resolved.map (innerBubbles children bus)).sum
        = ((before ++ part :: after).map (innerBubbles children bus)).sum :=
    sum_map_eq (same.imp fun _ _ bound => bound.same.innerBubbles_eq children bus)
  refine .overflow checks (.inr ⟨bus, ?_⟩)
  rw [← sum_bubbleDemand_eq wired (resolves.imp fun _ _ resolves => resolves.1) children bus, inner]
  omega

end Resolved

-----------------------------------------------------------------------------------------
-- The whole circuit
-----------------------------------------------------------------------------------------

/-- A wired circuit is analyzed after all that it instantiates, unless something in it is at fault.
-/
theorem failsBy_analyze [Arithmetic] (wired : circuit.Wired)
    (below
      : ∀ component ∈ circuit.components,
          ∀ target,
            component.kind = .subcircuit target → (ofCircuit? children target.position).isSome)
    : FailsBy (Fault library circuit children) (analyze library circuit children registry) := by
  refine failsBy_bind ?_ fun nets formed => ?_
  · exact fun cause failed => .conflict (failsBy_bareNets wired cause failed)
  refine failsBy_bind ?_ fun resolved resolves => ?_
  · exact failsBy_mapM fun component placed => failsBy_resolvePart wired formed placed
  have paired := (mapM_eq_ok.1 resolves).imp fun _ _ => resolvePart_spec
  refine failsBy_bind (failsBy_bindParts wired paired) ?_
  rintro ⟨bound, boundary⟩ binds
  have binds := (mapM_run_eq_ok.1 binds).imp fun _ _ _ _ => bindPart_binds
  exact failsBy_bind (failsBy_takes wired below paired binds) fun _ _ => failsBy_ok

end Netlist

end SchematicHdl
