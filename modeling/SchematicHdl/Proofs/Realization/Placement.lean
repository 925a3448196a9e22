import SchematicHdl.Proofs.Realization.Fits
import SchematicHdl.Proofs.Realization.Notes

/-! What a placed component becomes. If the ports of its form fit the part and its bubbles stay on
their busses, the actuals of its instance are as wide as these ports, and they use names of the
architecture around it.
-/

namespace SchematicHdl

open Hdl (Actual Architecture Bit Expr Instance PortMap Scope Statement)
open Outcome

namespace Placement

-----------------------------------------------------------------------------------------
-- Ends
-----------------------------------------------------------------------------------------

/-- What the architecture around the placed component can use so far. -/
def scope (placement : Placement) (notes : Notes) : Scope :=
  placement.netlist.scope placement.mode notes.openWires

variable {placement : Placement} {notes notes' : Notes}

theorem scope_subset (within : notes.openWires ⊆ notes'.openWires)
    : (placement.scope notes).names ⊆ (placement.scope notes').names :=
  Netlist.scope_mono within

theorem endAt_eq_ok {endIndex : Nat} {resolved : ResolvedEnd}
    : placement.endAt endIndex = .ok resolved ↔ placement.part.end? endIndex = some resolved := by
  unfold endAt
  split <;> simp_all

/-- The end of a part that is known to have one. -/
theorem attached_of_endAt {endIndex width : Nat}
    (has : placement.part.HasEnd placement.netlist endIndex width) {resolved : ResolvedEnd}
    (found : placement.endAt endIndex = .ok resolved)
    : resolved.width = width
      ∧ ∀ point, some point ∈ resolved.points → placement.netlist.nets.Rooted point := by
  obtain ⟨direction, listed, there, attached⟩ := has
  obtain rfl := Option.some.inj (there.symm.trans (endAt_eq_ok.1 found))
  exact ⟨attached.width_eq, attached.rooted⟩

/-- An end that is connected, but not by a slice of one net, has several bits. -/
theorem one_lt_width {netlist : Netlist} {resolved : ResolvedEnd}
    (connected : resolved.isUnconnected = false) (scattered : netlist.endExpr? resolved = none)
    : 1 < resolved.width := by
  rcases resolved with ⟨direction, points⟩
  match points with
  | [] => cases connected
  | [none] => cases connected
  | [some point] => cases scattered
  | _ :: _ :: rest => exact Nat.succ_lt_succ (Nat.succ_pos _)

theorem whole?_hasWidth {endIndex width : Nat}
    (has : placement.part.HasEnd placement.netlist endIndex width) {expr : Expr}
    (found : placement.whole? endIndex = .ok (some expr))
    : expr.HasWidth (placement.scope notes) width := by
  simp only [whole?, bind_eq_ok, pure_eq_ok] at found
  obtain ⟨resolved, there, slice⟩ := found
  obtain ⟨rfl, rooted⟩ := attached_of_endAt has there
  exact Netlist.endExpr?_hasWidth rooted slice

theorem bit?_hasWidth {endIndex width bit : Nat}
    (has : placement.part.HasEnd placement.netlist endIndex width) {expr : Expr}
    (found : placement.bit? endIndex bit = .ok (some expr))
    : expr.HasWidth (placement.scope notes) 1 := by
  simp only [bit?, bind_eq_ok, pure_eq_ok] at found
  obtain ⟨resolved, there, named⟩ := found
  obtain ⟨point, atBit, rfl⟩ := Option.map_eq_some_iff.mp named
  have listed := List.mem_of_getElem? (Option.join_eq_some_iff.mp atBit)
  exact Netlist.pointExpr_hasWidth ((attached_of_endAt has there).2 point listed)

theorem bit_hasWidth {scope : Scope} {value : Bit} : (Expr.bit value).HasWidth scope 1 :=
  .filled rfl

-----------------------------------------------------------------------------------------
-- Actuals of input ports
-----------------------------------------------------------------------------------------

theorem inputEnd_hasWidth (notes : Notes) {endIndex width : Nat} {tie : Bit}
    (has : placement.part.HasEnd placement.netlist endIndex width) {actual : Actual}
    (made : placement.inputEnd endIndex tie = .ok actual)
    : actual.HasWidth (placement.scope notes) width ∧ actual ≠ .unconnected := by
  simp only [inputEnd, bind_eq_ok] at made
  obtain ⟨resolved, there, made⟩ := made
  obtain ⟨rfl, rooted⟩ := attached_of_endAt has there
  split at made
  · obtain rfl := pure_eq_ok.1 made
    exact ⟨Expr.HasWidth.filled rfl, by simp⟩
  next connected =>
  split at made
  · next expr slice =>
      obtain rfl := pure_eq_ok.1 made
      exact ⟨Netlist.endExpr?_hasWidth rooted slice, by simp⟩
  · next scattered =>
      obtain rfl := pure_eq_ok.1 made
      have several := one_lt_width (by simpa using connected) scattered
      refine ⟨⟨several, by simp [ResolvedEnd.width], fun bit member => ?_⟩, by simp⟩
      obtain ⟨point, listed, rfl⟩ := List.mem_map.mp member
      split
      · exact Netlist.pointExpr_hasWidth (rooted _ listed)
      · exact bit_hasWidth

/-- A clock end is fed by a tree of the circuit, by a net or by nothing. -/
theorem clockSource_known {endIndex width : Nat}
    (has : placement.part.HasEnd placement.netlist endIndex width)
    (listed : placement.netlist.ClocksListed) {source : ClockSource}
    (found : placement.clockSource endIndex = .ok source)
    : placement.netlist.SourceKnown placement.mode notes.openWires source := by
  simp only [clockSource, bind_eq_ok] at found
  obtain ⟨resolved, there, found⟩ := found
  split at found
  · obtain rfl := pure_eq_ok.1 found
    trivial
  · next point first =>
      split at found
      · next tree carries =>
          obtain rfl := pure_eq_ok.1 found
          exact listed.clockTreeOf? carries
      · obtain rfl := pure_eq_ok.1 found
        have listed := List.mem_of_head? (Option.join_eq_some_iff.mp first)
        exact Netlist.pointExpr_hasWidth ((attached_of_endAt has there).2 point listed)

theorem bubbles_hasWidth {bus : Direction} {count : Nat} (word : count < Word.size)
    (reserved : Reserved count (placement.part.bubbles.get bus))
    (inside : placement.netlist.BubblesInside placement.part) {expr : Expr}
    (made : placement.bubbles bus = .ok expr)
    : expr.HasWidth (placement.scope notes) count := by
  unfold bubbles at made
  split at made
  · next range found =>
      obtain rfl := Except.ok.inj made
      obtain ⟨ordered, within⟩ := inside bus range found
      rw [found] at reserved
      have last := reserved.last_eq word ordered
      obtain rfl : range.last - range.first + 1 = count := by omega
      exact Netlist.bubbleExpr_hasWidth ordered within
  · cases made

/-- An actual that suits a port of a width: it is not without any bit, and it is as wide as the port
if the bubbles of the part stay on their busses.
-/
structure Suits (placement : Placement) (notes : Notes) (width : Nat) (actual : Actual) : Prop where
  filled : actual ≠ .perBit []
  typed
    : placement.netlist.BubblesInside placement.part
      → actual.HasWidth (placement.scope notes) width

theorem suits_of_hasWidth {actual : Actual} {width : Nat}
    (typed : actual.HasWidth (placement.scope notes) width)
    : placement.Suits notes width actual :=
  ⟨typed.filled, fun _ => typed⟩

theorem Suits.mono {actual : Actual} {width : Nat} (suits : placement.Suits notes width actual)
    (within : notes.openWires ⊆ notes'.openWires)
    : placement.Suits notes' width actual :=
  ⟨suits.filled, fun inside => (suits.typed inside).mono (scope_subset within) rfl⟩

/-- The actual of an input port suits the port, and it reads something. -/
theorem inputActual_spec {port : Port} (fits : port.Fits placement)
    (listed : placement.netlist.ClocksListed) {actual : Actual}
    (made : Succeeds (placement.inputActual port) notes actual notes')
    : notes.openWires ⊆ notes'.openWires
      ∧ placement.Suits notes' port.width actual
      ∧ actual ≠ .unconnected := by
  have same := List.Subset.refl notes.openWires
  unfold Port.Fits at fits
  simp only [inputActual] at made
  cases source : port.source <;> simp only [source] at fits made
  case whole endIndex =>
    obtain ⟨found, rfl⟩ := succeeds_ofExcept.1 made
    obtain ⟨typed, reads⟩ := inputEnd_hasWidth notes fits found
    exact ⟨same, suits_of_hasWidth typed, reads⟩
  case bitwise ends =>
    obtain ⟨several, length, has⟩ := fits
    simp only [succeeds_bind, succeeds_ofExcept] at made
    obtain ⟨bits, _, ⟨each, rfl⟩, made⟩ := made
    have each := mapM_eq_ok.1 each
    split at made
    · obtain ⟨rfl, rfl⟩ := succeeds_pure.1 made
      exact ⟨same, suits_of_hasWidth (Expr.HasWidth.filled rfl), by simp⟩
    · obtain ⟨rfl, rfl⟩ := succeeds_pure.1 made
      refine ⟨same, suits_of_hasWidth ⟨several, ?_, fun expr member => ?_⟩, by simp⟩
      · simp [← each.length_eq, length]
      obtain ⟨bit, here, rfl⟩ := List.mem_map.mp member
      obtain ⟨endIndex, inside, found⟩ := forall₂_mem_right each here
      cases bit with
      | none => exact bit_hasWidth
      | some expr => exact bit?_hasWidth (has endIndex inside) found
  case clockOf endIndex =>
    simp only [succeeds_bind, succeeds_ofExcept, succeeds_pure] at made
    obtain ⟨clock, _, ⟨found, rfl⟩, _, _, warned, rfl, rfl⟩ := made
    rw [fits.1]
    refine ⟨warnOfClock_le Notes.order_openWires warned ▸ same, suits_of_hasWidth ?_, by simp⟩
    exact (Netlist.clockAndTick_hasWidth (clockSource_known fits.2 listed found)).1
  case tickOf endIndex =>
    simp only [succeeds_bind, succeeds_ofExcept, succeeds_pure] at made
    obtain ⟨clock, _, ⟨found, rfl⟩, rfl, rfl⟩ := made
    rw [fits.1]
    refine ⟨same, suits_of_hasWidth ?_, by simp⟩
    exact (Netlist.clockAndTick_hasWidth (clockSource_known fits.2 listed found)).2
  case bubbles bus =>
    simp only [succeeds_bind, succeeds_ofExcept, succeeds_pure] at made
    obtain ⟨expr, _, ⟨found, rfl⟩, rfl, rfl⟩ := made
    obtain ⟨-, word, reserved⟩ := fits
    exact
      ⟨same, ⟨nofun, fun inside => bubbles_hasWidth word reserved inside found⟩, by simp⟩
  case fixed expr =>
    obtain ⟨rfl, rfl⟩ := succeeds_pure.1 made
    have typed : expr.HasWidth (placement.scope notes) port.width :=
      fits.mono (Netlist.scope_mono (List.nil_subset _)) rfl
    exact ⟨same, suits_of_hasWidth typed, by simp⟩

-----------------------------------------------------------------------------------------
-- Actuals of output ports
-----------------------------------------------------------------------------------------

/-- A dangling wire stands in for an expression that is missing. -/
theorem orOpenWire_spec {expr? : Option Expr}
    (typed : ∀ expr, expr? = some expr → expr.HasWidth (placement.scope notes) 1) {expr : Expr}
    (made : Succeeds (orOpenWire expr?) notes expr notes')
    : notes.openWires ⊆ notes'.openWires ∧ expr.HasWidth (placement.scope notes') 1 := by
  cases expr? with
  | some found =>
      obtain ⟨rfl, rfl⟩ := succeeds_pure.1 made
      exact ⟨List.Subset.refl _, typed _ rfl⟩
  | none =>
      obtain ⟨rfl, rfl⟩ := openWire_succeeds.1 made
      exact
        ⟨List.subset_append_left _ _,
          .ref (Netlist.openWire_mem_scope (List.mem_append_right _ List.mem_cons_self))⟩

/-- One bit after the other, dangling wires are added for the bits that are missing. -/
theorem openBits_spec (placement : Placement) {α : Type} {bit : α → PlacementM Expr}
    {items : List α} {bits : List Expr}
    (each
      : ∀ item ∈ items,
          ∀ notes expr notes',
            Succeeds (bit item) notes expr notes'
            → notes.openWires ⊆ notes'.openWires ∧ expr.HasWidth (placement.scope notes') 1)
    (made : Succeeds (items.mapM bit) notes bits notes')
    : notes.openWires ⊆ notes'.openWires
      ∧ bits.length = items.length
      ∧ ∀ expr ∈ bits, expr.HasWidth (placement.scope notes') 1 := by
  have settled :=
    (mapM_succeeds.1 made).forall₂_settled
      (fun notes notes' => notes.openWires ⊆ notes'.openWires)
      (fun _ => List.Subset.refl _) List.Subset.trans
      (fun item _ _ _ member step => (each item member _ _ _ step).1)
      (fun _ expr last => expr.HasWidth (placement.scope last) 1)
      (fun item _ _ _ _ member step within =>
        (each item member _ _ _ step).2.mono (scope_subset within) rfl)
  refine ⟨settled.1, settled.2.length_eq.symm, fun expr member => ?_⟩
  obtain ⟨item, -, typed⟩ := forall₂_mem_right settled.2 member
  exact typed

theorem outputEnd_spec {endIndex width : Nat}
    (has : placement.part.HasEnd placement.netlist endIndex width) {actual : Actual}
    (made : Succeeds (placement.outputEnd endIndex) notes actual notes')
    : notes.openWires ⊆ notes'.openWires ∧ actual.HasWidth (placement.scope notes') width := by
  simp only [outputEnd, succeeds_bind, succeeds_ofExcept] at made
  obtain ⟨resolved, _, ⟨there, rfl⟩, made⟩ := made
  obtain ⟨rfl, rooted⟩ := attached_of_endAt has there
  split at made
  · obtain ⟨rfl, rfl⟩ := succeeds_pure.1 made
    exact ⟨List.Subset.refl _, trivial⟩
  next connected =>
  split at made
  · next expr slice =>
      obtain ⟨rfl, rfl⟩ := succeeds_pure.1 made
      exact ⟨List.Subset.refl _, Netlist.endExpr?_hasWidth rooted slice⟩
  · next scattered =>
      simp only [succeeds_bind, succeeds_pure] at made
      obtain ⟨bits, _, made, rfl, rfl⟩ := made
      have several := one_lt_width (by simpa using connected) scattered
      have spec := openBits_spec placement ?_ made
      · exact ⟨spec.1, several, spec.2.1, spec.2.2⟩
      · intro point listed notes expr notes' step
        refine orOpenWire_spec (fun expr found => ?_) step
        obtain ⟨point, rfl, rfl⟩ := Option.map_eq_some_iff.mp found
        exact Netlist.pointExpr_hasWidth (rooted point listed)

/-- The actual of a port that drives suits the port. -/
theorem outputActual_spec {port : Port} (fits : port.Fits placement) {actual : Actual}
    (made : Succeeds (placement.outputActual port) notes actual notes')
    : notes.openWires ⊆ notes'.openWires ∧ placement.Suits notes' port.width actual := by
  unfold Port.Fits at fits
  simp only [outputActual] at made
  cases source : port.source <;> simp only [source] at fits made
  case whole endIndex => exact (outputEnd_spec fits made).imp_right suits_of_hasWidth
  case bitwise ends =>
    obtain ⟨several, length, has⟩ := fits
    split at made
    · obtain ⟨rfl, rfl⟩ := succeeds_pure.1 made
      exact ⟨List.Subset.refl _, suits_of_hasWidth trivial⟩
    · simp only [succeeds_bind, succeeds_pure] at made
      obtain ⟨bits, _, made, rfl, rfl⟩ := made
      have spec := openBits_spec placement ?_ made
      · exact ⟨spec.1, suits_of_hasWidth ⟨several, spec.2.1.trans length, spec.2.2⟩⟩
      · intro endIndex inside notes expr notes' step
        simp only [succeeds_bind, succeeds_ofExcept] at step
        obtain ⟨bit, _, ⟨found, rfl⟩, step⟩ := step
        refine orOpenWire_spec (fun expr some => ?_) step
        exact bit?_hasWidth (has endIndex inside) (some ▸ found)
  case bubbles bus =>
    simp only [succeeds_bind, succeeds_ofExcept, succeeds_pure] at made
    obtain ⟨expr, _, ⟨found, rfl⟩, rfl, rfl⟩ := made
    obtain ⟨-, word, reserved⟩ := fits
    exact
      ⟨List.Subset.refl _, nofun, fun inside =>
        bubbles_hasWidth word reserved inside found⟩
  case clockOf | tickOf | fixed => exact absurd made not_succeeds_throw

-----------------------------------------------------------------------------------------
-- Instances
-----------------------------------------------------------------------------------------

/-- The ports of an instance, one after the other, with what is known of each actual. -/
theorem portMaps_spec (known : Actual → Prop) {actualOf : Port → PlacementM Actual}
    {ports : List Port}
    (each
      : ∀ port ∈ ports,
          ∀ notes actual notes',
            Succeeds (actualOf port) notes actual notes'
            → notes.openWires ⊆ notes'.openWires
              ∧ placement.Suits notes' port.width actual
              ∧ known actual)
    {maps : List PortMap}
    (made
      : Succeeds (ports.mapM (fun port => do return ⟨port.name, ← actualOf port⟩)) notes maps
          notes')
    : notes.openWires ⊆ notes'.openWires
      ∧ List.Forall₂
          (fun port map =>
            map.formal = port.name
            ∧ placement.Suits notes' (Port.width port) map.actual
            ∧ known map.actual)
          ports maps := by
  have step {port : Port} {notes notes' : Notes} {map : PortMap} (member : port ∈ ports)
      (made : Succeeds (do return PortMap.mk port.name (← actualOf port)) notes map notes')
      : notes.openWires ⊆ notes'.openWires
        ∧ map.formal = port.name
        ∧ placement.Suits notes' port.width map.actual
        ∧ known map.actual := by
    obtain ⟨actual, formed, rfl⟩ := bindPort_succeeds.1 made
    have spec := each port member _ _ _ formed
    exact ⟨spec.1, rfl, spec.2⟩
  exact
    (mapM_succeeds.1 made).forall₂_settled
      (fun notes notes' => notes.openWires ⊆ notes'.openWires)
      (fun _ => List.Subset.refl _) List.Subset.trans
      (fun port _ _ _ member made => (step member made).1)
      (fun port map last =>
        map.formal = port.name
        ∧ placement.Suits last port.width map.actual
        ∧ known map.actual)
      (fun port _ _ _ _ member made within =>
        have spec := (step member made).2
        ⟨spec.1, spec.2.1.mono within, spec.2.2⟩)

/-- The instance of a component names the definition that its form declares, and it fits that
definition if the bubbles of the part stay on their busses.
-/
theorem instantiate_spec {form : Form} (fits : form.Fits placement) (sized : form.Sized)
    (listed : placement.netlist.ClocksListed) {inst : Instance}
    (made : Succeeds (placement.instantiate form) notes inst notes')
    : notes.openWires ⊆ notes'.openWires
      ∧ inst.label = placement.label
      ∧ ∀ architecture,
          inst.LinksIf (placement.netlist.BubblesInside placement.part) (placement.scope notes')
            (form.unit architecture) := by
  obtain ⟨inputs, driven, middle, first, second, rfl⟩ := instantiate_succeeds.1 made
  have inputs_spec :=
    portMaps_spec (· ≠ .unconnected)
      (fun port member _ _ _ made =>
        inputActual_spec (fits port (List.mem_append_left _ member)) listed made)
      first
  have driven_spec :=
    portMaps_spec (fun _ => True)
      (fun port member _ _ _ made =>
        have spec := outputActual_spec (fits port (List.mem_append_right _ member)) made
        ⟨spec.1, spec.2, trivial⟩)
      second
  obtain ⟨outputs, inouts, rfl, outputs_spec, inouts_spec⟩ := forall₂_append_left driven_spec.2
  have width (port : Port) (member : port ∈ form.ports) := sized port member
  refine ⟨List.Subset.trans inputs_spec.1 driven_spec.1, rfl, fun architecture =>
    ⟨rfl, rfl, ?_, fun inside => ⟨rfl, rfl, ?_⟩⟩⟩
  all_goals
    simp only [Form.unit, List.append_assoc]
    refine List.rel_append ?_ (List.rel_append ?_ ?_) <;> rw [List.forall₂_map_left_iff]
  · refine inputs_spec.2.imp fun port map ⟨formal, suits, reads⟩ => ?_
    exact ⟨formal, suits.filled, fun unbound => absurd unbound reads⟩
  · exact outputs_spec.imp fun _ _ ⟨formal, suits, _⟩ => ⟨formal, suits.filled, fun _ => nofun⟩
  · exact inouts_spec.imp fun _ _ ⟨formal, suits, _⟩ => ⟨formal, suits.filled, fun _ => nofun⟩
  · refine forall₂_imp_mem inputs_spec.2 fun port member map _ ⟨formal, suits, reads⟩ => ?_
    refine ⟨formal, ⟨port.width, width port (List.mem_append_left _ member), ?_⟩, ?_⟩
    · exact (suits.mono driven_spec.1).typed inside
    · exact fun unbound => absurd unbound reads
  · refine forall₂_imp_mem outputs_spec fun port member map _ ⟨formal, suits, _⟩ => ?_
    refine ⟨formal, ⟨port.width, width port ?_, suits.typed inside⟩, fun _ => nofun⟩
    exact List.mem_append_right _ (List.mem_append_left _ member)
  · refine forall₂_imp_mem inouts_spec fun port member map _ ⟨formal, suits, _⟩ => ?_
    refine ⟨formal, ⟨port.width, width port ?_, suits.typed inside⟩, fun _ => nofun⟩
    exact List.mem_append_right _ (List.mem_append_right _ member)

end Placement

end SchematicHdl
