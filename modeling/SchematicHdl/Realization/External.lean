import SchematicHdl.Identifier
import SchematicHdl.Realization.Form
import SchematicHdl.Schematic.Circuit

/-! Externally described entities as components. Their text is copied as it is. -/

namespace SchematicHdl.ExternalEntity

def formPorts (entity : ExternalEntity) (direction : Direction) : List Port :=
  entity.ports.zipIdx.filterMap (fun (port, endIndex) =>
    if port.direction = direction then some (.plain port.name port.width (.whole endIndex))
    else none)

def form (entity : ExternalEntity) : Form :=
  {
    name := Identifier.ofLabel entity.name entity.position,
    origin := s!"entity \"{entity.name}\"",
    labelStem := "HDL_ENTITY",
    directory := "hdl",
    inputs := entity.formPorts .input,
    outputs := entity.formPorts .output,
    inouts := entity.formPorts .inout,
    parameters := []
  }

end SchematicHdl.ExternalEntity
