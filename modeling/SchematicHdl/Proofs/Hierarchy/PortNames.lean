import Mathlib.Data.List.Nodup
import SchematicHdl.Proofs.Hierarchy.Sound
import SchematicHdl.Proofs.Netlist.Consistency
import SchematicHdl.Proofs.Respelling
import SchematicHdl.Realization.Circuit

/-! Names of the ports of a circuit. The ports for clocks and bubbles have names that are reserved
for them and all different, and so have the pins among themselves, whatever the letter case. But a
pin may be called like a port for clocks or bubbles, which the analysis of a design does not refuse.
-/

namespace SchematicHdl

open Outcome

-----------------------------------------------------------------------------------------
-- Port names
-----------------------------------------------------------------------------------------

namespace Netlist

/-- The names of all ports, in their order. -/
def portNames (netlist : Netlist) (mode : ClockMode) : List String :=
  (netlist.form mode).ports.map Port.name

/-- The names of the ports for clocks and bubbles. -/
def reservedNames (netlist : Netlist) (mode : ClockMode) : List String :=
  netlist.clockTrees.map clockTreeName
    ++ ((if netlist.needsGlobalClock mode then [globalClockName] else [])
      ++ ([.input, .output, .inout].filter (fun bus => netlist.bubbles.get bus ≠ 0)).map bubblePort)

/-- The names of the pins of one direction. -/
def pinNamesOf (netlist : Netlist) (direction : Direction) : List String :=
  (netlist.parts.filter (fun part => part.category = .pin direction)).filterMap Part.portName

/-- The names of the pins that have ports. -/
def pinNames (netlist : Netlist) : List String :=
  netlist.pinNamesOf .input ++ netlist.pinNamesOf .output

/-- No pin is called like a port for clocks or bubbles. -/
def NamesPinsApart (netlist : Netlist) (mode : ClockMode) : Prop :=
  ∀ name ∈ netlist.pinNames, Text.foldCase name ∉ (netlist.reservedNames mode).map Text.foldCase

variable {netlist : Netlist} {mode : ClockMode}

theorem map_name_pinPorts (direction : Direction)
    : (netlist.pinPorts direction).map Port.name = netlist.pinNamesOf direction := by
  have names
      : (netlist.pinPorts direction).map Port.name
        = netlist.pins.filterMap (fun pin =>
            if pin.category = .pin direction then pin.portName else none) := by
    rw [← List.zipIdx_map_fst 0 netlist.pins, List.filterMap_map, pinPorts, List.map_filterMap]
    apply List.filterMap_congr
    intro numbered _
    simp only [Function.comp_apply]
    split
    · cases numbered.1.portName <;> rfl
    · rfl
  rw [names, pins, pinNamesOf, List.filterMap_filter, List.filterMap_filter]
  apply List.filterMap_congr
  intro part _
  by_cases category : part.category = .pin direction
  · simp [category, isPin_of_category category]
  · simp [category]

theorem map_name_bubblePorts (bus : Direction)
    : (netlist.bubblePorts bus).map Port.name
      = ([bus].filter (fun bus => netlist.bubbles.get bus ≠ 0)).map bubblePort := by
  by_cases empty : netlist.bubbles.get bus = 0
  · simp [bubblePorts, empty]
  · simp [bubblePorts, empty, Port.plain]

/-- The ports of a circuit are those for its clocks and bubbles and those of its pins. -/
theorem portNames_perm (netlist : Netlist) (mode : ClockMode)
    : (netlist.portNames mode).Perm (netlist.reservedNames mode ++ netlist.pinNames) := by
  have trees
      : (netlist.clockTrees.map (fun tree => sharedPort (clockTreeName tree) clockTreeWidth)).map
          Port.name
        = netlist.clockTrees.map clockTreeName := by
    simp [sharedPort, Port.plain]
  have global
      : (if netlist.needsGlobalClock mode then [sharedPort globalClockName 1] else []).map Port.name
        = if netlist.needsGlobalClock mode then [globalClockName] else [] := by
    split <;> rfl
  have busses
      : ([.input, .output, .inout].filter (fun bus => netlist.bubbles.get bus ≠ 0)).map bubblePort
        = (netlist.bubblePorts .input).map Port.name
          ++ (netlist.bubblePorts .output).map Port.name
          ++ (netlist.bubblePorts .inout).map Port.name := by
    simp only [map_name_bubblePorts, ← List.map_append, ← List.filter_append]
    rfl
  simp only [portNames, form, Form.ports, Form.drivingPorts, reservedNames, pinNames, busses,
    List.map_append, trees, global, map_name_pinPorts]
  rw [List.perm_iff_count]
  intro name
  simp only [List.count_append]
  omega

-----------------------------------------------------------------------------------------
-- Reserved names
-----------------------------------------------------------------------------------------

theorem clockTreeName_eq (tree : Nat)
    : clockTreeName tree = Identifier.numbered "LOGISIM_CLOCK_TREE" tree :=
  congrArg (· ++ toString tree)
    (show "LOGISIM_CLOCK_TREE_" = "LOGISIM_CLOCK_TREE" ++ "_" by decide +kernel)

theorem foldCase_clockTreeName_injective
    : Function.Injective (fun tree => Text.foldCase (clockTreeName tree)) := by
  intro tree other same
  dsimp only at same
  rw [clockTreeName_eq, clockTreeName_eq] at same
  exact (Identifier.foldCase_numbered_inj same).2

/-- The names that do not depend on a circuit. -/
def fixedNames : List String := globalClockName :: [.input, .output, .inout].map bubblePort

theorem fixedNames_unnumbered
    : ∀ name ∈ fixedNames, Identifier.IsUnnumbered (Text.foldCase name) := by
  decide +kernel

theorem fixedNames_distinct : (fixedNames.map Text.foldCase).Nodup := by decide +kernel

/-- Reserved names are different if every clock tree is listed once. -/
theorem reservedNames_distinct (distinct : netlist.clockTrees.Nodup) (mode : ClockMode)
    : ((netlist.reservedNames mode).map Text.foldCase).Nodup := by
  have clock
      : (if netlist.needsGlobalClock mode then [globalClockName] else []).Sublist
          [globalClockName] := by
    split
    · exact .refl _
    · exact List.nil_sublist _
  have busses
      : ([.input, .output, .inout].filter (fun bus => netlist.bubbles.get bus ≠ 0)).Sublist
          [.input, .output, .inout] :=
    List.filter_sublist
  have fixed := clock.append (busses.map bubblePort)
  rw [reservedNames, List.map_append, List.map_map]
  refine List.nodup_append.mpr ⟨distinct.map foldCase_clockTreeName_injective, ?_, ?_⟩
  · exact List.Nodup.sublist (fixed.map _) fixedNames_distinct
  · intro name fromTree other chosen same
    obtain ⟨tree, -, rfl⟩ := List.mem_map.mp fromTree
    obtain ⟨fixedName, listed, rfl⟩ := List.mem_map.mp ((fixed.map _).subset chosen)
    rw [Function.comp_apply, clockTreeName_eq] at same
    exact Identifier.foldCase_numbered_ne (fixedNames_unnumbered fixedName listed) _ tree same

-----------------------------------------------------------------------------------------
-- Names of pins
-----------------------------------------------------------------------------------------

/-- A held pin is called what it asked for. -/
theorem Holds.portKey?_eq {library : Library} {children : List Netlist} {component : Component}
    {part : Part} (holds : Holds library children netlist component part)
    : portKey? part = part.portName.map Text.foldCase := by
  have same := holds.component_eq
  cases isPin : component.isPin with
  | false =>
      rw [portKey?_of_isPin_eq_false (by rw [Part.isPin, same, isPin]), holds.notPin isPin]
      rfl
  | true =>
      obtain ⟨direction, kind⟩ := Component.exists_kind_of_isPin isPin
      obtain ⟨resolved, ends, fate⟩ := holds.pin direction kind
      simp only [portKey?, same, kind, ends]
      cases fate with
      | bubble unconnected unnamed => simp [unconnected, unnamed]
      | named connected name => simp [connected, name]

/-- The names of the pins of an analyzed circuit are different. -/
theorem Stages.portNames_distinct [Arithmetic] {library : Library} {circuit : Circuit}
    {children : List Netlist} {registry : ClockRegistry} {analyzed : Analyzed}
    (wired : circuit.Wired) (stages : Stages library circuit children registry analyzed)
    : ((analyzed.netlist.parts.filterMap Part.portName).map Text.foldCase).Nodup := by
  have asked
      : analyzed.netlist.parts.filterMap portKey?
        = (analyzed.netlist.parts.filterMap Part.portName).map Text.foldCase := by
    rw [List.map_filterMap]
    refine List.filterMap_congr fun part held => ?_
    obtain ⟨component, -, holds⟩ := forall₂_mem_right stages.holds held
    exact holds.portKey?_eq
  rw [← asked, filterMap_portKey? wired stages.resolvesParts]
  exact (stages.consistent wired).names

/-- Input and output pins are different pins. -/
theorem pinNames_distinct
    (distinct : ((netlist.parts.filterMap Part.portName).map Text.foldCase).Nodup)
    : (netlist.pinNames.map Text.foldCase).Nodup := by
  have others
      : (netlist.parts.filter (fun part => part.category = .pin .output)).Sublist
          (netlist.parts.filter (fun part => !decide (part.category = .pin .input))) := by
    refine List.monotone_filter_right _ fun part output => ?_
    simp [of_decide_eq_true output]
  have parts := List.filter_append_perm (·.category = .pin .input) netlist.parts
  have apart := ((parts.filterMap Part.portName).map Text.foldCase).nodup_iff.mpr distinct
  rw [pinNames, pinNamesOf, pinNamesOf, ← List.filterMap_append]
  exact apart.sublist ((((List.Sublist.refl _).append others).filterMap _).map _)

/-- Port names are different just when no pin is called like another port. -/
theorem portNames_distinct_iff (reserved : ((netlist.reservedNames mode).map Text.foldCase).Nodup)
    (pins : (netlist.pinNames.map Text.foldCase).Nodup)
    : ((netlist.portNames mode).map Text.foldCase).Nodup ↔ netlist.NamesPinsApart mode := by
  rw [((netlist.portNames_perm mode).map Text.foldCase).nodup_iff, List.map_append,
    List.nodup_append]
  constructor
  · rintro ⟨-, -, apart⟩ name pin listed
    exact apart _ listed _ (List.mem_map_of_mem pin) rfl
  · intro apart
    refine ⟨reserved, pins, fun taken listed asked pin same => ?_⟩
    obtain ⟨name, called, rfl⟩ := List.mem_map.mp pin
    exact apart name called (same ▸ listed)

end Netlist

-----------------------------------------------------------------------------------------
-- Clock trees of analyzed circuits
-----------------------------------------------------------------------------------------

namespace Hierarchy

/-- A circuit lists its clock trees in ascending order, also after it has inherited more. -/
theorem settle_ascending [Machine] (parents : List Netlist) {netlist : Netlist}
    (ascending : netlist.clockTrees.Pairwise (· < ·))
    : (settle parents netlist).clockTrees.Pairwise (· < ·) := by
  rw [settle]
  generalize Machine.arrange _ (netlist.pins.filterMap (inherited? parents netlist)) = clocks
  induction clocks generalizing netlist with
  | nil => exact ascending
  | cons clock rest ih => exact ih (Netlist.insertAscending_ascending ascending)

variable {library : Library} {top : CircuitRef} {hierarchy : Hierarchy}

theorem analyze_ascending [Machine] (wellFormed : library.WellFormed)
    (h : analyze library top = .ok hierarchy) {netlist : Netlist}
    (member : netlist ∈ hierarchy.netlists)
    : netlist.clockTrees.Pairwise (· < ·) := by
  obtain ⟨netlists, sunk, assembled, -⟩ := analyze_eq_ok wellFormed h
  rw [sunk] at member
  obtain ⟨before, raw, after, split, rfl⟩ := mem_sinkClocks member
  obtain ⟨trees, analyzed, done, rfl, -⟩ := assembled.analyzed wellFormed split
  obtain ⟨stages⟩ := Netlist.analyze_stages done
  exact settle_ascending _ stages.clockTrees_ascending

/-- In every circuit of an analyzed design, the ports for clocks and bubbles have different names,
and so have the pins.
-/
theorem analyze_portNames [Machine] (built : library.Built)
    (h : analyze library top = .ok hierarchy)
    {netlist : Netlist} (member : netlist ∈ hierarchy.netlists) (mode : ClockMode)
    : ((netlist.reservedNames mode).map Text.foldCase).Nodup
      ∧ (netlist.pinNames.map Text.foldCase).Nodup := by
  have ascending := analyze_ascending built.wellFormed h member
  obtain ⟨_, _, analyzed, ⟨stages⟩, same, -⟩ := analyze_stages built.wellFormed h member
  have known := analyze_sound built.wellFormed h netlist member
  have wired : netlist.circuit.Wired := built.wired _ (List.mem_of_getElem? known.found)
  rw [← known.circuit_eq] at stages
  refine ⟨Netlist.reservedNames_distinct (ascending.imp Nat.ne_of_lt) mode, ?_⟩
  refine Netlist.pinNames_distinct ?_
  rw [same.parts_eq]
  exact stages.portNames_distinct wired

end Hierarchy

end SchematicHdl
