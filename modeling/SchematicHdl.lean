import SchematicHdl.Main
import SchematicHdl.Report
import SchematicHdl.Proofs.Netlist.Connectivity
import SchematicHdl.Proofs.Hierarchy.ClockTrees
import SchematicHdl.Proofs.DesignFile.PinsFirst
import SchematicHdl.Proofs.Generation.Linking
import SchematicHdl.Proofs.Hierarchy.ClockOutputs
import SchematicHdl.Proofs.Schematic.References
import SchematicHdl.Proofs.Hierarchy.Decision
import SchematicHdl.Proofs.Generation.Undriven
import SchematicHdl.Proofs.Keeping
import SchematicHdl.Proofs.DesignFile.Contents
import SchematicHdl.Proofs.Hdl.Writing
import SchematicHdl.Proofs.Realization.Totality
import SchematicHdl.Proofs.Generation.Blame
import SchematicHdl.Proofs.Generation.Keys
import SchematicHdl.Proofs.Pairing
import SchematicHdl.Proofs.Generation.Dialects
import SchematicHdl.Proofs.Identifier
import SchematicHdl.Proofs.Schematic.Moving
import SchematicHdl.Proofs.Netlist.Moving
import SchematicHdl.Proofs.Hierarchy.Moving
import SchematicHdl.Proofs.Realization.Moving
import SchematicHdl.Proofs.Generation.Moving
import SchematicHdl.Proofs.DesignFile.Rearranging
import SchematicHdl.Proofs.Generation.PortClashes
import SchematicHdl.Proofs.Generation.LibraryNames
import SchematicHdl.Proofs.Net.Copies
import SchematicHdl.Proofs.Sanitizing
import SchematicHdl.Proofs.Hierarchy.Diagnostics
import SchematicHdl.Proofs.Realization.Functions
import SchematicHdl.Proofs.Realization.Connections
import SchematicHdl.Proofs.Unmarked
import SchematicHdl.Proofs.Generation.MadeUpLabels
import SchematicHdl.Proofs.Generation.History
import SchematicHdl.Proofs.Realization.PriorityEncoder
import SchematicHdl.Proofs.Hierarchy.Slices
import SchematicHdl.Proofs.Generation.Levels
import SchematicHdl.Proofs.Hdl.Indentation
import SchematicHdl.Proofs.Net.Walks
import SchematicHdl.Proofs.Hdl.Unambiguous
