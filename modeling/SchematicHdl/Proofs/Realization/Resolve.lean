import SchematicHdl.Proofs.Realization.Inlined

/-! Realizations of the components of an analyzed design. A component that can be expressed in a
dialect has a form that fits its part, or it is inlined.
-/

namespace SchematicHdl

open Hdl (Statement)
open Outcome

/-- Placements of the component become assignments. -/
def Component.isInlined (component : Component) : Bool :=
  match component.kind with
  | .primitive type => (Realization.ofPrimitive type component.attributes).isInlined
  | _ => false

theorem Hierarchy.netlistOf_eq_ok {hierarchy : Hierarchy} {target : CircuitRef} {netlist : Netlist}
    : hierarchy.netlistOf target = .ok netlist
      ↔ Netlist.ofCircuit? hierarchy.netlists target.position = some netlist := by
  unfold netlistOf
  split <;> simp_all

namespace Realization

/-- What realizes a component that can be expressed in a dialect. -/
inductive Resolves (hierarchy : Hierarchy) (mode : ClockMode) (dialect : Dialect)
    (component : Component)
    : Realization → Prop
  | primitive {type} (kind : component.kind = .primitive type)
    : Resolves hierarchy mode dialect component (ofPrimitive type component.attributes)
  | subcircuit {target child} (kind : component.kind = .subcircuit target)
    (found : Netlist.ofCircuit? hierarchy.netlists target.position = some child)
    (realizable : child.isRealizable = true)
    : Resolves hierarchy mode dialect component (ofNetlist child mode)
  | external {entity} (kind : component.kind = .external entity)
    (same : dialect = entity.dialect)
    : Resolves hierarchy mode dialect component (ofExternal entity)

variable {hierarchy : Hierarchy} {mode : ClockMode} {dialect : Dialect} {component : Component}
  {realization : Realization}

theorem supported_of_checked {made : Except GenerationError Realization}
    (h
      : (do
          let realization ← made
          if realization.supports dialect then return realization
          else throw (unsupported component dialect))
        = .ok realization)
    : made = .ok realization ∧ realization.supports dialect = true := by
  obtain ⟨found, made, checked⟩ := bind_eq_ok.1 h
  split at checked
  · next possible =>
      obtain rfl := pure_eq_ok.1 checked
      exact ⟨made, possible⟩
  · exact absurd checked throw_ne_ok

theorem resolve_resolves (h : resolve hierarchy mode dialect component = .ok realization)
    : Resolves hierarchy mode dialect component realization := by
  unfold resolve at h
  split at h <;> obtain ⟨made, possible⟩ := supported_of_checked h
  · next type kind =>
      obtain rfl := Except.ok.inj made
      exact .primitive kind
  · next target kind =>
      obtain ⟨child, known, rfl⟩ := map_eq_ok.1 made
      exact .subcircuit kind (Hierarchy.netlistOf_eq_ok.mp known) possible
  · next entity kind =>
      obtain rfl := Except.ok.inj made
      exact .external kind (of_decide_eq_true possible)
  all_goals cases made

theorem Resolves.isInlined_eq (resolves : Resolves hierarchy mode dialect component realization)
    : realization.isInlined = component.isInlined := by
  cases resolves with
  | primitive kind => simp [Component.isInlined, kind]
  | subcircuit kind | external kind =>
      rw [Component.isInlined, kind]
      rfl

theorem Resolves.category_eq (resolves : Resolves hierarchy mode dialect component realization)
    : component.category
      = match realization.definition with
        | .circuit _ => .subcircuit
        | _ => .normal := by
  cases resolves with
  | @primitive type kind =>
      simp only [Component.category, kind]
      cases type <;> rfl
  | subcircuit kind | external kind => simp [Component.category, kind, ofNetlist, ofExternal]

theorem Resolves.category_ne (resolves : Resolves hierarchy mode dialect component realization)
    (leaf : ∀ child, realization.definition ≠ .circuit child)
    : component.category ≠ .subcircuit := by
  rw [resolves.category_eq]
  split
  · next child definition => exact absurd definition (leaf child)
  · nofun

/-- What is defined as a circuit realizes an instance of that circuit, which can be generated. -/
theorem Resolves.of_circuit (resolves : Resolves hierarchy mode dialect component realization)
    {child : Netlist} (definition : realization.definition = .circuit child)
    : realization = ofNetlist child mode
      ∧ child.isRealizable = true
      ∧ ∃ target,
          component.kind = .subcircuit target
          ∧ Netlist.ofCircuit? hierarchy.netlists target.position = some child := by
  cases resolves with
  | @primitive type _ => cases type <;> cases definition
  | external => cases definition
  | subcircuit kind there realizable =>
      obtain rfl := Definition.circuit.inj definition
      exact ⟨rfl, realizable, _, kind, there⟩

/-- A component that is not inlined has a form that fits its part. -/
theorem Resolves.fits {library : Library} (sound : hierarchy.Sound library)
    (placement : Placement)
    (holds : Netlist.Holds library hierarchy.netlists placement.netlist component placement.part)
    (supported : component.Supported)
    (resolves : Resolves hierarchy placement.mode dialect component realization)
    (notInlined : realization.isInlined = false)
    : realization.form.Fits placement ∧ realization.form.Sized := by
  cases resolves with
  | primitive kind =>
      simp only [Component.Supported, kind] at supported
      refine ⟨holds.form_fits ?_, ofPrimitive_sized supported notInlined⟩
      simp only [Library.ends, kind]
      exact ofPrimitive_fitsEnds supported notInlined
  | subcircuit kind found =>
      have known := sound.netlists _ (Netlist.ofCircuit?_mem found).1
      exact ⟨known.form_fits holds kind found, .of_plain Netlist.form_plain⟩
  | external kind =>
      refine ⟨holds.form_fits ?_, ExternalEntity.form_sized _⟩
      simp only [Library.ends, kind]
      exact ExternalEntity.form_fitsEnds _

/-- An inlined component becomes assignments between expressions of one width. -/
theorem Resolves.inlineStatements_assign {library : Library} {placement : Placement}
    (resolves
      : Resolves hierarchy placement.mode dialect placement.part.component realization)
    (holds
      : Netlist.Holds library hierarchy.netlists placement.netlist placement.part.component
          placement.part)
    (inlined : realization.isInlined = true) {notes notes' : Notes} {statements : List Statement}
    (made : Succeeds (placement.inlineStatements realization) notes statements notes')
    : notes'.openWires = notes.openWires
      ∧ ∀ statement ∈ statements, statement.Assigns (placement.scope notes') := by
  cases resolves with
  | @primitive type kind =>
      obtain ⟨output, inputs⟩ := Gate.ends_eq inlined
      have ends (endIndex : Nat) {shape : EndShape}
          (shaped
            : (type.ends placement.part.component.attributes)[endIndex]? = some shape)
          : placement.part.HasEnd placement.netlist endIndex shape.width :=
        holds.hasEnd (by simpa only [Library.ends, kind] using shaped)
      exact
        Placement.inlineStatements_assign inlined (ends _ output)
          (fun endIndex member => ends endIndex (inputs endIndex member)) made
  | subcircuit | external => cases inlined

end Realization

end SchematicHdl
