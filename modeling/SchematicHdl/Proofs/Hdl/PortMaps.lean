import SchematicHdl.Proofs.Hdl.Meaning
import SchematicHdl.Proofs.Hdl.Writing

/-! Port maps as they are written. An instance is written with a list of associations: VHDL
associates the bits of a formal port one by one, least significant bit first, where Verilog has one
concatenation with the most significant bit first. Either way each bit of the formal port gets the
same thing.
-/

namespace SchematicHdl.Hdl

open Outcome

/-- An association of a formal port, or of one of its bits, which only VHDL can name. -/
inductive Association : Dialect → Type where
  | whole {dialect} (formal : String) (expr : Expr) : Association dialect
  | unconnected {dialect} (formal : String) : Association dialect
  | bit (formal : String) (position : Nat) (expr : Expr) : Association .vhdl

namespace Association

/-- The text of an association. -/
def text : (dialect : Dialect) → Association dialect → String
  | .vhdl, .whole formal expr => s!"{formal} => {expr.render .vhdl}"
  | .vhdl, .unconnected formal => s!"{formal} => OPEN"
  | .vhdl, .bit formal position expr => s!"{formal}({position}) => {expr.render .vhdl}"
  | .verilog, .whole formal expr => s!".{formal}({expr.render .verilog})"
  | .verilog, .unconnected formal => s!".{formal}()"

/-- What the bits of the formal port get, each with the number of the bit, where an expression
stands for a list of things, least significant bit first.
-/
def bits {α : Type} (denote : Expr → List α) {dialect : Dialect}
    : Association dialect → List (α × Nat)
  | .whole _ expr => (denote expr).zipIdx
  | .unconnected _ => []
  | .bit _ position expr => (denote expr).map (fun item => (item, position))

end Association

/-- The associations of one formal port. -/
def PortMap.associations (map : PortMap) : (dialect : Dialect) → List (Association dialect)
  | .vhdl =>
      match map.actual with
      | .whole expr => [.whole map.formal expr]
      | .perBit bits => bits.zipIdx.map (fun (bit, position) => .bit map.formal position bit)
      | .unconnected => [.unconnected map.formal]
  | .verilog =>
      match map.actual with
      | .whole expr => [.whole map.formal expr]
      | .perBit bits => [.whole map.formal (.concat bits.reverse)]
      | .unconnected => [.unconnected map.formal]

/-- The associations are what is written, unless there is a map without any bits. -/
theorem portAssociations_eq (dialect : Dialect) (label : String) {map : PortMap}
    (some : map.isEmpty = false)
    : portAssociations dialect label map
      = .ok ((map.associations dialect).map (Association.text dialect)) := by
  obtain ⟨formal, actual⟩ := map
  cases actual with
  | whole | unconnected => cases dialect <;> rfl
  | perBit bits =>
      cases bits with
      | nil => cases some
      | cons first rest =>
          cases dialect with
          | vhdl => simp [portAssociations, PortMap.associations, Association.text]
          | verilog => rfl

theorem instanceAssociations_eq (dialect : Dialect) {inst : Instance}
    (some : ∀ map ∈ inst.ports, map.isEmpty = false)
    : instanceAssociations dialect inst
      = .ok
          ((inst.ports.flatMap (fun map => map.associations dialect)).map
            (Association.text dialect)) := by
  have each
      : inst.ports.mapM (portAssociations dialect inst.label)
        = .ok
            (inst.ports.map (fun map =>
              (map.associations dialect).map (Association.text dialect))) :=
    mapM_eq_map fun map member => portAssociations_eq dialect inst.label (some map member)
  rw [instanceAssociations, each, List.map_flatMap, List.flatMap_def]
  rfl

/-- What an actual holds for each bit of the formal port. -/
def Actual.bitwise {α : Type} (denote : Expr → List α) : Actual → List (List α)
  | .whole expr => (denote expr).map (fun item => [item])
  | .perBit bits => bits.map denote
  | .unconnected => []

/-- An actual that holds one thing for each bit is written so that each bit gets it, in either
language.
-/
theorem associations_bits {α : Type} {denote : Expr → List α}
    (concat : ∀ parts, denote (.concat parts) = (parts.map denote).reverse.flatten) {map : PortMap}
    {items : List α} (held : map.actual.bitwise denote = items.map (fun item => [item]))
    (dialect : Dialect)
    : (map.associations dialect).flatMap (Association.bits denote) = items.zipIdx := by
  obtain ⟨formal, actual⟩ := map
  cases actual with
  | whole expr =>
      obtain rfl : denote expr = items :=
        List.map_injective_iff.mpr (fun _ _ => List.singleton_inj.mp) held
      cases dialect <;> simp [PortMap.associations, Association.bits]
  | perBit bits =>
      simp only [Actual.bitwise] at held
      cases dialect with
      | vhdl =>
          calc
            (PortMap.associations ⟨formal, .perBit bits⟩ .vhdl).flatMap (Association.bits denote)
                = (bits.map denote).zipIdx.flatMap (fun (part, position) =>
                    part.map (fun item => (item, position))) := by
              simp [PortMap.associations, Association.bits, List.zipIdx_map, List.flatMap_map]
            _ = items.zipIdx := by
              simp [held, List.zipIdx_map, List.flatMap_map]
      | verilog =>
          have joined : denote (.concat bits.reverse) = items := by
            rw [concat, List.map_reverse, List.reverse_reverse, held, ← List.flatMap_def,
              List.flatMap_singleton']
          simp [PortMap.associations, Association.bits, joined]
  | unconnected =>
      obtain rfl : items = [] := List.map_eq_nil_iff.mp held.symm
      cases dialect <;> rfl

end SchematicHdl.Hdl
