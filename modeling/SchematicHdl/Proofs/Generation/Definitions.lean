import Mathlib.Data.List.Nodup
import SchematicHdl.Generation.Emission
import SchematicHdl.Proofs.Realization.Resolve
import SchematicHdl.Proofs.Text

/-! The definitions of a design and what tells them apart. The origin of a circuit names the
circuit, so different circuits of a design have different origins, and no other definition has such
an origin or lies in the directory of the circuits.
-/

namespace SchematicHdl

open Generation (Emitted Handled)
open Netlist (positions)

/-- What a definition is known by. -/
def Form.key (form : Form) : Handled := ⟨form.name, form.origin⟩

def Generation.Emitted.key (emitted : Emitted) : Handled := emitted.form.key

/-- The definition of a circuit. -/
def Form.isCircuit (form : Form) : Bool := form.directory = "circuit"

theorem Netlist.isCircuit_form (netlist : Netlist) (mode : ClockMode)
    : (netlist.form mode).isCircuit = true :=
  rfl

/-- The origin of a circuit tells its name. -/
theorem Netlist.name_of_origin {a b : Netlist} {mode : ClockMode}
    (same : (a.form mode).origin = (b.form mode).origin)
    : a.circuit.name = b.circuit.name := by
  simpa [form, toString] using same

namespace ExternalEntity

/-- The origin of an entity tells its name. -/
theorem name_of_origin {a b : ExternalEntity} (same : a.form.origin = b.form.origin)
    : a.name = b.name := by
  simpa [form, toString] using same

theorem origin_ne_name (entity : ExternalEntity) (type : Primitive)
    : entity.form.origin ≠ type.name := by
  intro same
  have texts := congrArg String.toList same
  cases type <;> simp [form, toString, Primitive.name] at texts

end ExternalEntity

theorem Netlist.origin_ne_name (netlist : Netlist) (mode : ClockMode) (type : Primitive)
    : (netlist.form mode).origin ≠ type.name := by
  intro same
  have texts := congrArg String.toList same
  cases type <;> simp [form, toString, Primitive.name] at texts

theorem Netlist.origin_ne_entity (netlist : Netlist) (mode : ClockMode)
    (entity : ExternalEntity)
    : (netlist.form mode).origin ≠ entity.form.origin := by
  intro same
  have texts := congrArg String.toList same
  simp [form, ExternalEntity.form, toString] at texts

/-- A circuit of a design is told by its origin. -/
theorem Hierarchy.Sound.eq_of_origin {library : Library} {hierarchy : Hierarchy}
    (sound : hierarchy.Sound library) {a b : Netlist} (memberA : a ∈ hierarchy.netlists)
    (memberB : b ∈ hierarchy.netlists) {mode : ClockMode}
    (same : (a.form mode).origin = (b.form mode).origin)
    : a = b := by
  have atPosition {netlist : Netlist} (member : netlist ∈ hierarchy.netlists)
      : (library.circuits.map Circuit.name)[netlist.circuit.position]?
        = some netlist.circuit.name := by
    rw [List.getElem?_map, (sound.netlists netlist member).found, Option.map_some]
  have foundA := atPosition memberA
  have foundB := atPosition memberB
  rw [← Netlist.name_of_origin same] at foundB
  have inside := (List.getElem?_eq_some_iff.mp foundA).1
  have position := (List.getElem?_inj inside sound.wellFormed.names).mp (foundA.trans foundB.symm)
  exact List.inj_on_of_nodup_map sound.distinct memberA memberB position

namespace Realization

variable {hierarchy : Hierarchy} {mode : ClockMode} {dialect : Dialect} {component : Component}
  {realization : Realization}

theorem ofPrimitive_origin (type : Primitive) (attributes : Attributes)
    : (ofPrimitive type attributes).form.origin = type.name := by
  cases type <;> rfl

/-- A definition that is not a circuit is told from all circuits by its origin. -/
theorem Resolves.origin_ne (resolves : Resolves hierarchy mode dialect component realization)
    (leaf : ∀ child, realization.definition ≠ .circuit child) (netlist : Netlist)
    : realization.form.origin ≠ (netlist.form mode).origin := by
  cases resolves with
  | primitive =>
      rw [ofPrimitive_origin]
      exact (netlist.origin_ne_name mode _).symm
  | subcircuit => exact absurd rfl (leaf _)
  | external => exact (netlist.origin_ne_entity mode _).symm

theorem Resolves.isCircuit_eq (resolves : Resolves hierarchy mode dialect component realization)
    (leaf : ∀ child, realization.definition ≠ .circuit child)
    : realization.form.isCircuit = false := by
  cases resolves with
  | @primitive type kind => cases type <;> rfl
  | subcircuit => exact absurd rfl (leaf _)
  | external => rfl

/-- The directories of definitions are single names. -/
theorem Resolves.directory_plain (resolves : Resolves hierarchy mode dialect component realization)
    : '/' ∉ (Text.foldCase realization.form.directory).toList := by
  have listed
      : ["circuit", "gates", "hdl", "memory", "plexers"].contains realization.form.directory
        = true := by
    cases resolves with
    | @primitive type kind => cases type <;> rfl
    | subcircuit | external => rfl
  have plain
      : ∀ directory ∈ ["circuit", "gates", "hdl", "memory", "plexers"],
          '/' ∉ (Text.foldCase directory).toList := by
    decide
  exact plain _ (List.contains_iff_mem.mp listed)

end Realization

/-- The path of a definition tells its name. -/
theorem Generation.foldCase_name_of_filePath {dialect : Dialect} {a b : Form}
    (plainA : '/' ∉ (Text.foldCase a.directory).toList)
    (plainB : '/' ∉ (Text.foldCase b.directory).toList)
    (same : Text.foldCase (filePath dialect a) = Text.foldCase (filePath dialect b))
    : Text.foldCase a.name = Text.foldCase b.name := by
  have pieces (form : Form)
      : (Text.foldCase (filePath dialect form)).toList
        = (Text.foldCase form.directory).toList
          ++ '/' :: ((Text.foldCase form.name).toList
            ++ (Text.foldCase s!".{dialect.fileExtension}").toList) := by
    simp [filePath, Text.foldCase, toString]
  have texts := congrArg String.toList same
  rw [pieces, pieces] at texts
  obtain ⟨-, rest⟩ := Text.append_suffix_inj plainA plainB (.cons _ _) (.cons _ _) texts
  exact String.toList_inj.mp (List.append_cancel_right (List.cons.inj rest).2)

end SchematicHdl
