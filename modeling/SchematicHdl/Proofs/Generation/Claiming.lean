import SchematicHdl.Generation.Emission
import SchematicHdl.Proofs.Generation.Architecture
import SchematicHdl.Proofs.Hierarchy.PortNames
import SchematicHdl.Proofs.Realization.Notes
import SchematicHdl.Proofs.Realization.Totality

/-! Who claims the identifiers of an architecture. The ports of the circuit come first, then its
nets, its instances and its dangling wires. Forming an architecture claims an identifier for each of
them, in this order, and it only fails for two of them that are called alike, or for a component
without a counterpart.
-/

namespace SchematicHdl.Generation

open Hdl (SignalDecl)
open SchematicHdl.Outcome

-----------------------------------------------------------------------------------------
-- Claimants
-----------------------------------------------------------------------------------------

/-- What has an identifier in an architecture. -/
inductive Claimant where
  | clockTree (tree : Nat)
  | globalClock
  | bubbles (bus : Direction)
  | pin (component : Component)
  | net (nets : Net.Table) (position : Nat)
  /-- An instance with a label of its own. -/
  | labelled (component : Component)
  /-- An instance with a label that is made up for it. -/
  | unlabelled (component : Component) (stem : String) (number : Nat)
  | openWire (number : Nat)

namespace Claimant

def name : Claimant → String
  | .clockTree tree => clockTreeName tree
  | .globalClock => globalClockName
  | .bubbles bus => bubblePort bus
  | .pin component => component.identifier
  | .net nets position => nets.nameAt position
  | .labelled component => component.identifier
  | .unlabelled _ stem number => Identifier.numbered stem number
  | .openWire number => openWireName number

/-- What it is called in messages. -/
def what (claimant : Claimant) : String :=
  match claimant with
  | .labelled component => component.describe
  | .unlabelled component _ _ => component.describe
  | .net _ _ => s!"net {claimant.name}"
  | .openWire _ => s!"open wire {claimant.name}"
  | _ => s!"port \"{claimant.name}\""

/-- The identifier that it claims, whatever the letter case. -/
def key (claimant : Claimant) : String := Text.foldCase claimant.name

end Claimant

-- The ports of a circuit, in the order in which they are declared.

def busClaimants (netlist : Netlist) (bus : Direction) : List Claimant :=
  if netlist.bubbles.get bus = 0 then [] else [.bubbles bus]

def pinClaimants (netlist : Netlist) (direction : Direction) : List Claimant :=
  (netlist.parts.filter (fun part =>
    part.category = .pin direction && part.portName.isSome)).map (fun part => .pin part.component)

def portClaimants (netlist : Netlist) (mode : ClockMode) : List Claimant :=
  netlist.clockTrees.map .clockTree
    ++ (if netlist.needsGlobalClock mode then [.globalClock] else [])
    ++ busClaimants netlist .input ++ pinClaimants netlist .input
    ++ (busClaimants netlist .output ++ pinClaimants netlist .output)
    ++ busClaimants netlist .inout

def netClaimants (netlist : Netlist) : List Claimant :=
  netlist.nets.rootNets.map (.net netlist.nets)

/-- Start of the label of an instance, if the part becomes one. -/
def instanceStem? (hierarchy : Hierarchy) (options : Options) (part : Part) : Option String :=
  if isPlaced part then
    match Realization.resolve hierarchy options.clockMode options.dialect part.component with
    | .ok realization =>
        if realization.isInlined then none else some realization.form.labelStem
    | .error _ => none
  else none

/-- An instance, and the counts of made up labels after it. -/
def unitOf (counts : List (String × Nat)) (component : Component) (stem : String)
    : Claimant × List (String × Nat) :=
  match component.title? with
  | some _ => (.labelled component, counts)
  | none =>
      let number := (counts.lookup stem).getD 0 + 1
      (.unlabelled component stem number, (stem, number) :: counts)

/-- The instance that a part becomes, if it does, and the counts after it. -/
def partUnits (hierarchy : Hierarchy) (options : Options) (counts : List (String × Nat))
    (part : Part)
    : List Claimant × List (String × Nat) :=
  match instanceStem? hierarchy options part with
  | none => ([], counts)
  | some stem =>
      let (unit, counts) := unitOf counts part.component stem
      ([unit], counts)

/-- The instances of the parts, where this many labels are made up before them. -/
def units (hierarchy : Hierarchy) (options : Options)
    : List (String × Nat) → List Part → List Claimant
  | _, [] => []
  | counts, part :: rest =>
      let (here, counts) := partUnits hierarchy options counts part
      here ++ units hierarchy options counts rest

/-- All claimants of a circuit with a number of dangling wires, in the order of their claims. -/
def claimants (hierarchy : Hierarchy) (options : Options) (netlist : Netlist)
    (counts : List (String × Nat)) (openWires : Nat)
    : List Claimant :=
  portClaimants netlist options.clockMode ++ netClaimants netlist
    ++ units hierarchy options counts netlist.parts
    ++ (List.range openWires).map .openWire

/-- What is neither of a net nor of a dangling wire is of the ports and the instances. -/
theorem filterMap_claimants (hierarchy : Hierarchy) (options : Options) (netlist : Netlist)
    (counts : List (String × Nat)) (openWires : Nat) {α : Type} {keep : Claimant → Option α}
    (nets : ∀ nets position, keep (.net nets position) = none)
    (wires : ∀ number, keep (.openWire number) = none)
    : (claimants hierarchy options netlist counts openWires).filterMap keep
      = (portClaimants netlist options.clockMode).filterMap keep
        ++ (units hierarchy options counts netlist.parts).filterMap keep := by
  simp [claimants, netClaimants, List.filterMap_map, nets, wires]

-----------------------------------------------------------------------------------------
-- Ports
-----------------------------------------------------------------------------------------

theorem name_busClaimants (netlist : Netlist) (bus : Direction)
    : (busClaimants netlist bus).map Claimant.name = (netlist.bubblePorts bus).map Port.name := by
  by_cases empty : netlist.bubbles.get bus = 0
  · simp [busClaimants, Netlist.bubblePorts, empty]
  · simp [busClaimants, Netlist.bubblePorts, empty, Port.plain, Claimant.name]

/-- Pins with ports are called as their labels ask for. -/
theorem name_pinClaimants {library : Library} {hierarchy : Hierarchy} {netlist : Netlist}
    (sound : hierarchy.Sound library) (analyzed : netlist ∈ hierarchy.netlists)
    (direction : Direction)
    : (pinClaimants netlist direction).map Claimant.name = netlist.pinNamesOf direction := by
  rw [pinClaimants, Netlist.pinNamesOf, List.map_map, ← List.filterMap_eq_map,
    List.filterMap_filter, List.filterMap_filter]
  refine List.filterMap_congr fun part held => ?_
  by_cases category : part.category = .pin direction
  · have holds := (sound.part analyzed held).1
    obtain ⟨resolved, -, fate⟩ := holds.pin direction (Netlist.kind_of_category category)
    cases fate with
    | bubble _ unnamed => simp [unnamed]
    | named _ named =>
        simp [category, named, Claimant.name, Component.identifier, Netlist.boundaryName,
          Part.position]
  · simp [category]

/-- Ports are called like their claimants. -/
theorem name_portClaimants {library : Library} {hierarchy : Hierarchy} {netlist : Netlist}
    (sound : hierarchy.Sound library) (analyzed : netlist ∈ hierarchy.netlists) (mode : ClockMode)
    : (portClaimants netlist mode).map Claimant.name = netlist.portNames mode := by
  have trees
      : (netlist.clockTrees.map (fun tree =>
          Netlist.sharedPort (clockTreeName tree) clockTreeWidth)).map Port.name
        = (netlist.clockTrees.map Claimant.clockTree).map Claimant.name := by
    simp [Netlist.sharedPort, Port.plain, Claimant.name]
  have global
      : (if netlist.needsGlobalClock mode then [Netlist.sharedPort globalClockName 1] else []).map
          Port.name
        = (if netlist.needsGlobalClock mode then [.globalClock] else []).map Claimant.name := by
    split <;> rfl
  simp only [Netlist.portNames, Netlist.form, Form.ports, Form.drivingPorts, portClaimants,
    List.map_append, trees, global, name_busClaimants, Netlist.map_name_pinPorts,
    name_pinClaimants sound analyzed]
  simp only [List.append_assoc]

theorem what_portClaimants {netlist : Netlist} {mode : ClockMode} {claimant : Claimant}
    (listed : claimant ∈ portClaimants netlist mode)
    : claimant.what = s!"port \"{claimant.name}\"" := by
  cases claimant with
  | net | labelled | unlabelled | openWire =>
      simp [portClaimants, busClaimants, pinClaimants] at listed
  | clockTree | globalClock | bubbles | pin => rfl

-----------------------------------------------------------------------------------------
-- Claims
-----------------------------------------------------------------------------------------

/-- Two claimants are called alike, and the second one comes too late. -/
inductive Clash (scope : String) (claimants : List Claimant) : GenerationError → Prop
  | between {first second} (order : [first, second].Sublist claimants)
    (same : first.key = second.key)
    : Clash scope claimants
        (.identifierCollision second.name scope first.what second.what)

theorem Clash.mono {scope : String} {claimants more : List Claimant}
    (within : claimants.Sublist more) {cause : GenerationError}
    (clash : Clash scope claimants cause)
    : Clash scope more cause := by
  cases clash with
  | between order same => exact .between (order.trans within) same

/-- The identifiers claimed so far are those of the given claimants, all different; and this is how
many labels are made up so far.
-/
structure Stands (done : List Claimant) (counts : List (String × Nat)) (draft : Draft)
    : Prop where
  names : draft.names = (done.map (fun claimant => (claimant.key, claimant.what))).reverse
  distinct : (done.map Claimant.key).Nodup
  labelCounts : draft.labelCounts = counts
  numbered : draft.notes.Numbered

variable {done : List Claimant} {counts : List (String × Nat)} {draft : Draft} {scope : String}

theorem stands_start (counts : List (String × Nat))
    : Stands [] counts ⟨[], .empty, counts, .empty⟩ :=
  ⟨rfl, List.nodup_nil, rfl, rfl⟩

/-- A claim succeeds unless an earlier claimant is called alike. -/
theorem claim_ends (scope : String) (stands : Stands done counts draft) (claimant : Claimant)
    : Outcome.Ends (claim scope claimant.name claimant.what) draft
        (fun _ draft' => Stands (done ++ [claimant]) counts draft' ∧ draft'.notes = draft.notes)
        (Clash scope (done ++ [claimant])) := by
  cases ran : (claim scope claimant.name claimant.what).run draft with
  | ok result =>
      obtain ⟨⟨⟩, draft'⟩ := result
      obtain ⟨fresh, rfl⟩ := claim_run_eq_ok.1 ran
      refine ends_of_ok ran ⟨⟨by simp [stands.names, Claimant.key], ?_, stands.labelCounts,
        stands.numbered⟩, rfl⟩
      rw [stands.names, List.lookup_eq_none_iff] at fresh
      rw [List.map_append, List.map_singleton]
      refine stands.distinct.append (List.nodup_singleton _) ?_
      intro key earlier last
      obtain rfl := List.mem_singleton.mp last
      obtain ⟨other, listed, same⟩ := List.mem_map.mp earlier
      have differs := fresh (other.key, other.what)
        (List.mem_reverse.mpr (List.mem_map.mpr ⟨other, listed, rfl⟩))
      exact bne_iff_ne.mp differs same.symm
  | error cause =>
      obtain ⟨what, found, rfl⟩ := claim_run_eq_error ran
      have entry := mem_of_lookup_eq_some found
      rw [stands.names, List.mem_reverse] at entry
      obtain ⟨first, listed, known⟩ := List.mem_map.mp entry
      obtain ⟨same, rfl⟩ := Prod.mk.inj known
      refine ends_of_error ran (.between ?_ same)
      exact (List.singleton_sublist.mpr listed).append (.refl [claimant])

section Each

variable {α : Type} {items : List α} (of : α → Claimant)

/-- Claims succeed one after the other unless two claimants are called alike, by induction on the
items that they are for.
-/
theorem claims_end (scope : String) {nameOf what : α → String}
    (called : ∀ item ∈ items, nameOf item = (of item).name ∧ what item = (of item).what)
    (stands : Stands done counts draft)
    : Outcome.Ends (items.forM (fun item => claim scope (nameOf item) (what item))) draft
        (fun _ draft' => Stands (done ++ items.map of) counts draft')
        (Clash scope (done ++ items.map of)) := by
  induction items generalizing done draft with
  | nil => exact ends_of_ok rfl (by simpa using stands)
  | cons item items ih =>
      obtain ⟨⟨name, text⟩, others⟩ := List.forall_mem_cons.mp called
      have all : done ++ (item :: items).map of = done ++ [of item] ++ items.map of := by simp
      rw [all]
      refine ends_bind (M := fun _ => Stands (done ++ [of item]) counts) ?_ fun _ _ after => ?_
      · dsimp only
        rw [name, text]
        have claimed := (claim_ends scope stands (of item)).imp fun _ _ after => after.1
        exact claimed.worse fun _ clash => clash.mono (List.sublist_append_left _ _)
      · exact ih others after

/-- The same for declarations. -/
theorem declarations_end (what : α → String) (declaration : α → SignalDecl)
    (called
      : ∀ item ∈ items, (declaration item).name = (of item).name ∧ what item = (of item).what)
    (stands : Stands done counts draft)
    : Outcome.Ends
        (items.mapM (fun item => do
          claim scope (declaration item).name (what item)
          return declaration item)) draft
        (fun _ draft' => Stands (done ++ items.map of) counts draft' ∧ draft'.notes = draft.notes)
        (Clash scope (done ++ items.map of)) := by
  induction items generalizing done draft with
  | nil => exact ends_of_ok rfl ⟨by simpa using stands, rfl⟩
  | cons item items ih =>
      obtain ⟨⟨name, text⟩, others⟩ := List.forall_mem_cons.mp called
      have all : done ++ (item :: items).map of = done ++ [of item] ++ items.map of := by simp
      have claimed := claim_ends scope stands (of item)
      rw [all, List.mapM_cons, name, text]
      refine ends_bind (M := fun _ middle =>
        Stands (done ++ [of item]) counts middle ∧ middle.notes = draft.notes) ?_ ?_
      · refine ends_bind (claimed.worse fun _ clash => ?_) fun _ _ after => after
        exact clash.mono (List.sublist_append_left _ _)
      · rintro _ middle ⟨after, notes⟩
        refine ends_bind (ih others after) fun _ _ last => ?_
        exact ⟨last.1, last.2.trans notes⟩

end Each

-----------------------------------------------------------------------------------------
-- Steps without claims
-----------------------------------------------------------------------------------------

/-- The step succeeds, claims nothing and makes up no label. -/
def Quiet {α : Type} (step : DraftM α) : Prop :=
  ∀ done counts draft,
    Stands done counts draft
    → Outcome.Ends step draft (fun _ => Stands done counts) (fun _ => False)

section Quiet

variable {α β : Type}

theorem quiet_pure (a : α) : Quiet (pure a) := fun _ _ _ stands => stands

theorem quiet_bind {step : DraftM α} {next : α → DraftM β} (first : Quiet step)
    (second : ∀ result, Quiet (next result))
    : Quiet (step >>= next) :=
  fun done counts draft stands =>
    ends_bind (first done counts draft stands) fun result _ after => second result _ _ _ after

/-- Adding to the sections and to the warnings is quiet. -/
theorem quiet_modify {f : Draft → Draft}
    (keeps
      : ∀ draft,
          (f draft).names = draft.names
          ∧ (f draft).labelCounts = draft.labelCounts
          ∧ (f draft).notes.openWires = draft.notes.openWires)
    : Quiet (modify f) := by
  intro done counts draft stands
  obtain ⟨names, labelCounts, openWires⟩ := keeps draft
  refine ends_of_ok (run_modify_eq_ok.2 rfl) ⟨names ▸ stands.names, stands.distinct,
    labelCounts.trans stands.labelCounts, ?_⟩
  rw [Notes.Numbered, openWires]
  exact stands.numbered

theorem quiet_forM {items : List α} {step : α → DraftM PUnit}
    (each : ∀ item ∈ items, Quiet (step item))
    : Quiet (items.forM step) := by
  induction items with
  | nil => exact quiet_pure _
  | cons item items ih =>
      obtain ⟨head, tail⟩ := List.forall_mem_cons.mp each
      exact quiet_bind head fun _ => ih tail

/-- What a placed component becomes is formed without claims, and its dangling wires are numbered
on from those before.
-/
theorem quiet_onPlacement {action : PlacementM α} (total : Total action)
    (adds
      : ∀ notes result notes',
          Succeeds action notes result notes' → ∃ wires, notes.Adds wires notes')
    : Quiet (onPlacement action) := by
  intro done counts draft stands
  obtain ⟨result, notes, succeeds⟩ := total draft.notes
  obtain ⟨wires, added⟩ := adds _ _ _ succeeds
  refine ends_after (run_get_eq_ok.2 rfl) ?_
  rw [show (action.run draft.notes).run = _ from succeeds]
  exact ends_of_ok rfl ⟨stands.names, stands.distinct, stands.labelCounts,
    stands.numbered.adds added⟩

end Quiet

variable {netlist : Netlist} {mode : ClockMode} {part : Part}

theorem placeClock_quiet : Quiet (placeClock netlist mode part) := by
  unfold placeClock
  split <;> exact quiet_modify fun _ => ⟨rfl, rfl, rfl⟩

theorem placeOutputPin_quiet (resolved : ResolvedEnd)
    : Quiet (placeOutputPin netlist part resolved) := by
  unfold placeOutputPin
  split
  · refine quiet_bind (quiet_modify fun _ => ⟨rfl, rfl, rfl⟩) fun _ => ?_
    split
    · exact quiet_modify fun _ => ⟨rfl, rfl, rfl⟩
    · exact quiet_pure _
  · split
    · exact quiet_bind (quiet_modify fun _ => ⟨rfl, rfl, rfl⟩) fun _ =>
        quiet_modify fun _ => ⟨rfl, rfl, rfl⟩
    · exact quiet_pure _

theorem placePin_quiet (direction : Direction) : Quiet (placePin netlist direction part) := by
  unfold placePin
  split
  · split
    · exact quiet_modify fun _ => ⟨rfl, rfl, rfl⟩
    · exact quiet_pure _
  · exact placeOutputPin_quiet _
  · exact quiet_pure _

theorem tieBubbles_quiet (child : Netlist) : Quiet (tieBubbles netlist part child) := by
  refine quiet_forM fun (resolved, pin) _ => ?_
  dsimp only
  split
  · exact quiet_bind (quiet_modify fun _ => ⟨rfl, rfl, rfl⟩) fun _ =>
      quiet_modify fun _ => ⟨rfl, rfl, rfl⟩
  · exact quiet_pure _

-----------------------------------------------------------------------------------------
-- Parts
-----------------------------------------------------------------------------------------

/-- Why the architecture of a circuit cannot be formed: one of its components has no counterpart in
the output language, or two claimants are called alike.
-/
inductive Stops (hierarchy : Hierarchy) (options : Options) (netlist : Netlist)
    (claimants : List Claimant)
    : GenerationError → Prop
  | component {part cause} (held : part ∈ netlist.parts) (placed : isPlaced part = true)
    (refused
      : Realization.resolve hierarchy options.clockMode options.dialect part.component
        = .error cause)
    : Stops hierarchy options netlist claimants cause
  | names {cause} (clash : Clash netlist.name claimants cause)
    : Stops hierarchy options netlist claimants cause

variable {hierarchy : Hierarchy} {options : Options}

theorem Stops.mono {claimants more : List Claimant} (within : claimants.Sublist more)
    {cause : GenerationError} (stops : Stops hierarchy options netlist claimants cause)
    : Stops hierarchy options netlist more cause := by
  cases stops with
  | component held placed refused => exact .component held placed refused
  | names clash => exact .names (clash.mono within)

/-- The label of an instance is its own, or it is made up with the next number for its stem. -/
theorem instanceLabel_run (part : Part) (form : Form) (draft : Draft)
    : (instanceLabel part form).run draft
      = .ok
          ((unitOf draft.labelCounts part.component form.labelStem).1.name,
            {
              draft with
                labelCounts := (unitOf draft.labelCounts part.component form.labelStem).2
            }) := by
  unfold instanceLabel unitOf
  cases titled : part.component.title? with
  | none => rfl
  | some title =>
      have named : Identifier.ofLabel title part.position = part.component.identifier := by
        rw [Component.identifier, Component.label_of_title? titled]
        rfl
      dsimp only
      rw [named]
      rfl

theorem what_unitOf (counts : List (String × Nat)) (component : Component) (stem : String)
    : (unitOf counts component stem).1.what = component.describe := by
  unfold unitOf
  cases component.title? <;> rfl

section Analyzed

variable {library : Library} (sound : hierarchy.Sound library)
  (analyzed : netlist ∈ hierarchy.netlists) (held : part ∈ netlist.parts)
include sound analyzed held

/-- An instance claims its label, and nothing else can fail. -/
theorem placeInstance_ends {realization : Realization}
    (resolved
      : Realization.resolve hierarchy options.clockMode options.dialect part.component
        = .ok realization)
    (notInlined : realization.isInlined = false) (stands : Stands done counts draft)
    {unit : Claimant} {after : List (String × Nat)}
    (made : unitOf counts part.component realization.form.labelStem = (unit, after))
    : Outcome.Ends (placeInstance netlist options.clockMode part realization) draft
        (fun _ => Stands (done ++ [unit]) after) (Clash netlist.name (done ++ [unit])) := by
  obtain ⟨holds, supported⟩ := sound.part analyzed held
  have resolves := Realization.resolve_resolves resolved
  have label := instanceLabel_run part realization.form draft
  have what := what_unitOf counts part.component realization.form.labelStem
  rw [stands.labelCounts, made] at label
  rw [made] at what
  refine ends_after label ?_
  have counted : Stands done after { draft with labelCounts := after } :=
    ⟨stands.names, stands.distinct, rfl, stands.numbered⟩
  have claimed := claim_ends netlist.name counted unit
  rw [what] at claimed
  refine ends_bind claimed fun _ middle named => ?_
  have placed : Quiet (onPlacement
      ((Placement.mk netlist part unit.name options.clockMode).instantiate realization.form)) :=
    quiet_onPlacement (resolves.total_instantiate holds sound supported notInlined)
      fun _ _ _ => Placement.instantiate_le Notes.order_adds Notes.exists_adds_withOpenWire
  refine ends_bind ((placed _ _ _ named.1).worse fun _ => False.elim) fun inst last formed => ?_
  refine Outcome.Ends.worse ?_ fun _ => False.elim
  split
  · have added : Quiet (addSubcircuits [.instantiate inst]) :=
      quiet_modify fun _ => ⟨rfl, rfl, rfl⟩
    exact quiet_bind added (fun _ => tieBubbles_quiet _) _ _ _ formed
  · have added : Quiet (addNormal [.instantiate inst]) := quiet_modify fun _ => ⟨rfl, rfl, rfl⟩
    exact added _ _ _ formed

/-- Placing a component claims an identifier if it becomes an instance. -/
theorem placeComponent_ends (placed : isPlaced part = true) (stands : Stands done counts draft)
    {here : List Claimant} {after : List (String × Nat)}
    (made : partUnits hierarchy options counts part = (here, after))
    : Outcome.Ends (placeComponent hierarchy options netlist part) draft
        (fun _ => Stands (done ++ here) after)
        (Stops hierarchy options netlist (done ++ here)) := by
  obtain ⟨holds, -⟩ := sound.part analyzed held
  unfold placeComponent
  cases resolved
      : Realization.resolve hierarchy options.clockMode options.dialect part.component with
  | error cause => exact ends_of_error rfl (.component held placed resolved)
  | ok realization =>
      refine ends_after (run_ofExcept_eq_ok.2 ⟨_, rfl, rfl⟩) ?_
      cases inlined : realization.isInlined with
      | true =>
          obtain ⟨rfl, rfl⟩ : [] = here ∧ counts = after := by
            simpa [partUnits, instanceStem?, placed, resolved, inlined] using made
          have resolves := Realization.resolve_resolves resolved
          have formed : Quiet (onPlacement
              ((Placement.mk netlist part "" options.clockMode).inlineStatements realization)) :=
            quiet_onPlacement (resolves.total_inlineStatements holds inlined)
              fun _ _ _ => Placement.inlineStatements_le Notes.order_adds
          have quiet := quiet_bind formed fun statements =>
            show Quiet (addInlined statements) from quiet_modify fun _ => ⟨rfl, rfl, rfl⟩
          rw [List.append_nil]
          exact (quiet _ _ _ stands).worse fun _ => False.elim
      | false =>
          cases labelled : unitOf counts part.component realization.form.labelStem with
          | mk unit labelCounts =>
              obtain ⟨rfl, rfl⟩ : [unit] = here ∧ labelCounts = after := by
                simpa [partUnits, instanceStem?, placed, resolved, inlined, labelled] using made
              exact
                (placeInstance_ends sound analyzed held resolved inlined stands labelled).worse
                  fun _ => .names

/-- Pins, clock sources and inlined components claim nothing. -/
theorem placePart_ends (stands : Stands done counts draft)
    : Outcome.Ends (placePart hierarchy options netlist part) draft
        (fun _ =>
          Stands (done ++ (partUnits hierarchy options counts part).1)
            (partUnits hierarchy options counts part).2)
        (Stops hierarchy options netlist
          (done ++ (partUnits hierarchy options counts part).1)) := by
  have aside {step : DraftM Unit} (quiet : Quiet step) (unplaced : isPlaced part = false)
      : Outcome.Ends step draft
          (fun _ =>
            Stands (done ++ (partUnits hierarchy options counts part).1)
              (partUnits hierarchy options counts part).2)
          (Stops hierarchy options netlist
            (done ++ (partUnits hierarchy options counts part).1)) := by
    have nothing : partUnits hierarchy options counts part = ([], counts) := by
      simp [partUnits, instanceStem?, unplaced]
    rw [nothing, List.append_nil]
    exact (quiet _ _ _ stands).worse fun _ => False.elim
  unfold placePart
  split
  next category => exact aside placeClock_quiet (by simp [isPlaced, category])
  next direction category => exact aside (placePin_quiet _) (by simp [isPlaced, category])
  next category =>
    exact placeComponent_ends sound analyzed held (by simp [isPlaced, category]) stands rfl
  next category =>
    exact placeComponent_ends sound analyzed held (by simp [isPlaced, category]) stands rfl

end Analyzed

-----------------------------------------------------------------------------------------
-- The whole architecture
-----------------------------------------------------------------------------------------

section Whole

variable {library : Library} (sound : hierarchy.Sound library)
  (analyzed : netlist ∈ hierarchy.netlists)
include sound analyzed

/-- All parts claim what they claim one by one, by induction on the parts. -/
theorem placeParts_end (options : Options) {parts : List Part}
    (held : ∀ part ∈ parts, part ∈ netlist.parts) (stands : Stands done counts draft)
    : Outcome.Ends (parts.forM (placePart hierarchy options netlist)) draft
        (fun _ draft' =>
          ∃ after, Stands (done ++ units hierarchy options counts parts) after draft')
        (Stops hierarchy options netlist (done ++ units hierarchy options counts parts)) := by
  induction parts generalizing done counts draft with
  | nil => exact ends_of_ok rfl ⟨counts, by simpa [units] using stands⟩
  | cons part parts ih =>
      obtain ⟨here, later⟩ := List.forall_mem_cons.mp held
      have all
          : done ++ units hierarchy options counts (part :: parts)
            = done ++ (partUnits hierarchy options counts part).1
              ++ units hierarchy options (partUnits hierarchy options counts part).2 parts := by
        simp [units]
      rw [all]
      refine ends_bind ((placePart_ends sound analyzed here stands).worse fun _ stops => ?_)
        fun _ _ after => ih later after
      exact stops.mono (List.sublist_append_left _ _)

omit sound analyzed in
theorem declareNets_ends (stands : Stands done counts draft)
    : Outcome.Ends (declareNets netlist) draft
        (fun _ => Stands (done ++ netClaimants netlist) counts)
        (Clash netlist.name (done ++ netClaimants netlist)) :=
  (declarations_end (.net netlist.nets) (fun net => s!"net {netlist.nets.nameAt net}")
    (fun net => ⟨netlist.nets.nameAt net, .fixed (netlist.nets.widthAt net), .wire⟩)
    (fun _ _ => ⟨rfl, rfl⟩) stands).imp fun _ _ after => after.1

omit sound analyzed in
/-- Dangling wires are claimed by their numbers. -/
theorem declareOpenWires_ends (netlist : Netlist) (stands : Stands done counts draft)
    : Outcome.Ends (declareOpenWires netlist) draft
        (fun _ =>
          Stands (done ++ (List.range draft.notes.openWires.length).map .openWire) counts)
        (Clash netlist.name
          (done ++ (List.range draft.notes.openWires.length).map .openWire)) := by
  refine ends_after (run_get_eq_ok.2 rfl) ?_
  rw [stands.numbered, List.mapM_map]
  simp only [List.length_map, List.length_range]
  exact
    (declarations_end .openWire (fun number => s!"open wire {openWireName number}")
      (fun number => ⟨openWireName number, .fixed 1, .wire⟩) (fun _ _ => ⟨rfl, rfl⟩)
      stands).imp fun _ _ after => after.1

theorem claimPorts_ends (mode : ClockMode) (counts : List (String × Nat))
    : Outcome.Ends (claimPorts netlist mode) ⟨[], .empty, counts, .empty⟩
        (fun _ => Stands (portClaimants netlist mode) counts)
        (Clash netlist.name (portClaimants netlist mode)) := by
  have claims
      : claimPorts netlist mode
        = (portClaimants netlist mode).forM (fun claimant =>
            claim netlist.name claimant.name s!"port \"{claimant.name}\"") := by
    have named
        : claimPorts netlist mode
          = (netlist.portNames mode).forM (fun name =>
              claim netlist.name name s!"port \"{name}\"") :=
      (List.forM_map (l := (netlist.form mode).ports) (g := Port.name)
        (f := fun name => claim netlist.name name s!"port \"{name}\"")).symm
    rw [named, ← name_portClaimants sound analyzed]
    exact
      List.forM_map (l := portClaimants netlist mode) (g := Claimant.name)
        (f := fun name => claim netlist.name name s!"port \"{name}\"")
  have called (claimant : Claimant) (listed : claimant ∈ portClaimants netlist mode)
      : claimant.name = (id claimant).name
        ∧ s!"port \"{claimant.name}\"" = (id claimant).what :=
    ⟨rfl, (what_portClaimants listed).symm⟩
  have ended := claims_end id netlist.name called (stands_start counts)
  rwa [List.map_id, List.nil_append, ← claims] at ended

/-- Forming an architecture claims an identifier for each claimant, and it fails only where two of
them are called alike or a component has no counterpart.
-/
theorem draftArchitecture_ends (counts : List (String × Nat))
    : Outcome.Ends (draftArchitecture hierarchy options netlist) ⟨[], .empty, counts, .empty⟩
        (fun _ _ =>
          ∃ openWires,
            ((claimants hierarchy options netlist counts openWires).map Claimant.key).Nodup)
        (fun cause =>
          ∃ openWires,
            Stops hierarchy options netlist
              (claimants hierarchy options netlist counts openWires) cause) := by
  have ports := claimPorts_ends sound analyzed options.clockMode counts
  refine ends_bind (ports.worse fun _ clash => ⟨0, .names (clash.mono ?_)⟩) fun _ _ ported => ?_
  · simp [claimants]
  refine ends_bind ((declareNets_ends ported).worse fun _ clash => ⟨0, .names (clash.mono ?_)⟩)
    fun _ _ netted => ?_
  · simp [claimants]
  have parts := placeParts_end sound analyzed options (fun _ => id) netted
  refine ends_bind (parts.worse fun _ stops => ⟨0, stops.mono ?_⟩) ?_
  · simp [claimants]
  rintro _ placed ⟨after, stands⟩
  refine ends_after (run_modify_eq_ok.2 rfl) ?_
  have still (sections : Sections)
      : Stands
          (portClaimants netlist options.clockMode ++ netClaimants netlist
            ++ units hierarchy options counts netlist.parts)
          after { placed with sections } :=
    ⟨stands.names, stands.distinct, stands.labelCounts, stands.numbered⟩
  have wires (sections : Sections) := declareOpenWires_ends netlist (still sections)
  refine ends_bind ((wires _).worse fun _ clash => ⟨_, .names clash⟩) fun _ _ last => ?_
  exact ends_after (run_get_eq_ok.2 rfl) ⟨_, last.distinct⟩

end Whole

end SchematicHdl.Generation
