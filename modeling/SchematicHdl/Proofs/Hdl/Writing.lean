import SchematicHdl.Hdl.Listing
import SchematicHdl.Proofs.Hdl.Scope
import SchematicHdl.Proofs.Keeping
import SchematicHdl.Proofs.Machine

/-! Writing design units. A block that is written comes back to the indentation that it started
from. It can fail for a port that is bound bit by bit to no bits, for a declaration of no bits,
whose last index a checking build does not compute, and where indentation leaves its word. Both
languages fail for the same port or declaration.
-/

namespace SchematicHdl

namespace Hdl

open Page
open Outcome

-----------------------------------------------------------------------------------------
-- Blocks
-----------------------------------------------------------------------------------------

/-- The value of some arithmetic is there, or writing breaks off for its cause. -/
theorem leads_computed {α : Type} (value : Except Overflow α) (page : Page)
    : Leads (computed value) page (fun a page' => value = .ok a ∧ page' = page)
        (fun cause page' => ∃ overflow, value = .error overflow ∧ cause = .overflow overflow
          ∧ page' = page) := by
  cases value with
  | ok a => exact leads_ofExcept (fun _ same => ⟨mapError_eq_ok.1 same, rfl⟩) nofun
  | error overflow =>
      refine leads_ofExcept nofun fun cause same => ⟨overflow, rfl, ?_, rfl⟩
      exact (Except.error.inj same).symm

section Blocks

variable [Arithmetic]

/-- What becomes of a block that is indented beyond a word: the run ends, or the depth wraps around
and runs out behind the block.
-/
def crowded : GenerationError :=
  if Arithmetic.checksOverflow then .overflow .add else .internal .indentUnderflow

/-- The block fails for the given cause, or else it ends at the depth at which it starts. A depth
that leaves no room for so many more levels may be the cause as well.
-/
def Writes (levels : Nat) (block : PageM Unit) (cause? : Option GenerationError) : Prop :=
  ∀ page,
    page.depth < Word.size
    → Leads block page (fun _ page' => cause? = none ∧ page'.depth = page.depth)
      (fun cause _ => cause? = some cause ∨ cause = crowded ∧ Word.size ≤ page.depth + levels)

/-- The block does not fail where there is room for so many more levels. -/
class Plain (levels : Nat) (block : PageM Unit) : Prop where
  writes : Writes levels block none

theorem writes_plain (levels : Nat) (block : PageM Unit) [plain : Plain levels block]
    : Writes levels block none :=
  plain.writes

theorem leads_plain (levels : Nat) (block : PageM Unit) [plain : Plain levels block] {page : Page}
    (word : page.depth < Word.size)
    : Leads block page (fun _ page' => page'.depth = page.depth)
        (fun cause _ => cause = crowded ∧ Word.size ≤ page.depth + levels) :=
  (plain.writes page word).imp (fun _ _ ended => ended.2) fun _ _ failed =>
    failed.resolve_left nofun

variable {levels : Nat} {block first second : PageM Unit} {cause? : Option GenerationError}

/-- A block behind another one adds its cause of failure. -/
theorem writes_bind {more? : Option GenerationError} (head : Writes levels first cause?)
    (tail : Writes levels second more?)
    : Writes levels (first >>= fun _ => second) (cause?.or more?) := by
  intro page word
  cases cause? with
  | some cause =>
      refine leads_bind (M := fun _ _ => False) ((head page word).imp ?_ ?_) fun _ _ => False.elim
      · exact fun _ _ ended => by cases ended.1
      · exact fun _ _ failed => failed
  | none =>
      refine
        leads_bind ((head page word).imp (fun _ _ ended => ended.2) ?_) fun _ middle same => ?_
      · rintro _ _ (impossible | failed)
        · cases impossible
        · exact .inr failed
      · refine (tail middle (same.symm ▸ word)).imp (fun _ _ ended => ⟨ended.1, ?_⟩) ?_
        · exact ended.2.trans same
        · rw [same]
          exact fun _ _ failed => failed

theorem writes_after [head : Plain levels first] (tail : Writes levels second cause?)
    : Writes levels (first >>= fun _ => second) cause? :=
  writes_bind head.writes tail

theorem writes_before (head : Writes levels first cause?) [tail : Plain levels second]
    : Writes levels (first >>= fun _ => second) cause? := by
  have both := writes_bind head tail.writes
  rwa [Option.or_none] at both

theorem writes_ite {condition : Prop} [Decidable condition] (positive : Writes levels first cause?)
    (negative : Writes levels second cause?)
    : Writes levels (if condition then first else second) cause? := by
  split
  · exact positive
  · exact negative

/-- A list of blocks fails for the first cause among theirs, by induction on the list. -/
theorem writes_forM {α : Type} {write : α → PageM Unit}
    {causeOf : α → Option GenerationError} (each : ∀ x, Writes levels (write x) (causeOf x))
    (xs : List α)
    : Writes levels (xs.forM write) (xs.findSome? causeOf) := by
  induction xs with
  | nil => exact fun _ _ => leads_pure ⟨rfl, rfl⟩
  | cons x xs ih =>
      have both := writes_bind (each x) ih
      rw [List.findSome?_cons]
      cases here : causeOf x with
      | none => rwa [here] at both
      | some cause => rwa [here] at both

/-- The next level is one deeper as a word counts, if the build does not refuse it. -/
theorem leads_indent (page : Page)
    : Leads indent page (fun _ page' => page'.depth = (page.depth + 1) % Word.size
          ∧ (Arithmetic.checksOverflow = true → page.depth + 1 < Word.size))
        (fun cause _ => cause = crowded ∧ Word.size ≤ page.depth + 1) := by
  refine leads_bind (M := fun found page' => found = page ∧ page' = page) (leads_get ⟨rfl, rfl⟩) ?_
  rintro _ _ ⟨rfl, rfl⟩
  refine leads_bind ((leads_computed _ _).imp (fun _ _ => id) ?_) ?_
  · rintro _ _ ⟨overflow, failed, rfl, -⟩
    unfold Word.add at failed
    split at failed
    · next excess =>
        simp only [Bool.and_eq_true, decide_eq_true_eq] at excess
        cases failed
        exact ⟨by rw [crowded, if_pos excess.1], excess.2⟩
    · cases failed
  · rintro depth _ ⟨sum, rfl⟩
    obtain ⟨fits, rfl⟩ := Word.add_eq_ok.1 sum
    exact leads_modify ⟨rfl, fits⟩

/-- A block one indent further in is left at the depth at which it is entered, or that depth wraps
around behind it.
-/
theorem writes_indented (inner : Writes levels block cause?)
    : Writes (levels + 1) (indented block) cause? := by
  intro page word
  refine leads_bind ((leads_indent page).imp (fun _ _ => id) ?_) ?_
  · rintro _ _ ⟨rfl, full⟩
    exact .inr ⟨rfl, by omega⟩
  rintro _ entered ⟨deeper, fits⟩
  have inside : entered.depth < Word.size := deeper ▸ Nat.mod_lt _ Word.size_pos
  have below : entered.depth ≤ page.depth + 1 := deeper ▸ Nat.mod_le _ _
  refine leads_bind ((inner entered inside).imp (fun _ _ => id) ?_) fun _ written ended => ?_
  · rintro _ _ (failed | ⟨rfl, full⟩)
    · exact .inl failed
    · exact .inr ⟨rfl, by omega⟩
  refine leads_bind (M := fun found page' => found = written ∧ page' = written)
    (leads_get ⟨rfl, rfl⟩) ?_
  rintro _ _ ⟨rfl, rfl⟩
  rw [ended.2, deeper]
  by_cases room : page.depth + 1 < Word.size
  · rw [Nat.mod_eq_of_lt room]
    exact leads_modify ⟨ended.1, rfl⟩
  · have full : page.depth + 1 = Word.size := by omega
    rw [full, Nat.mod_self]
    refine leads_throw (.inr ⟨?_, by omega⟩)
    rw [crowded, if_neg (mt fits room)]

/-- A block behind some arithmetic fails for the cause of the arithmetic. -/
theorem writes_computed {α : Type} {value : Except Overflow α} {rest : α → PageM Unit}
    [tail : ∀ a, Plain levels (rest a)]
    : Writes levels (computed value >>= rest) ((error? value).map .overflow) := by
  intro page word
  refine leads_bind ((leads_computed value page).imp (fun _ _ => id) ?_) ?_
  · rintro _ _ ⟨overflow, rfl, rfl, -⟩
    exact .inl rfl
  · rintro a _ ⟨rfl, rfl⟩
    exact (tail a).writes _ word

instance : Plain levels (pure ()) := ⟨fun _ _ => leads_pure ⟨rfl, rfl⟩⟩

instance (text : String) : Plain levels (line text) := ⟨fun _ _ => leads_modify ⟨rfl, rfl⟩⟩

instance : Plain levels newline := ⟨fun _ _ => leads_modify ⟨rfl, rfl⟩⟩

instance [Plain levels first] [tail : Plain levels second]
    : Plain levels (first >>= fun _ => second) :=
  ⟨writes_after tail.writes⟩

instance {condition : Prop} [Decidable condition] [Plain levels first] [Plain levels second]
    : Plain levels (if condition then first else second) := by
  split <;> assumption

instance {α : Type} {write : α → PageM Unit} [each : ∀ x, Plain levels (write x)] (xs : List α)
    : Plain levels (xs.forM write) := by
  have all := writes_forM (fun x => (each x).writes) xs
  rw [List.findSome?_eq_none_iff.mpr fun _ _ => rfl] at all
  exact ⟨all⟩

instance (texts : List String) : Plain levels (lines texts) :=
  inferInstanceAs (Plain levels (texts.forM line))

/-- Separated items are plain, by induction on the items. -/
instance (separator : String) (items : List String)
    : Plain levels (separatedLines separator items) := by
  induction items with
  | nil => exact inferInstanceAs (Plain levels (pure ()))
  | cons item rest ih =>
      cases rest with
      | nil => exact inferInstanceAs (Plain levels (line item))
      | cons next others => exact inferInstanceAs (Plain levels (line _ >>= fun _ => _))

instance [inner : Plain levels block] : Plain (levels + 1) (indented block) :=
  ⟨writes_indented inner.writes⟩

end Blocks

-----------------------------------------------------------------------------------------
-- Instances
-----------------------------------------------------------------------------------------

/-- The port is bound bit by bit to no bits. -/
def PortMap.isEmpty (map : PortMap) : Bool :=
  match map.actual with
  | .perBit [] => true
  | _ => false

/-- Why an instance cannot be written: the first of its ports that is bound to no bits. -/
def Instance.cause? (inst : Instance) : Option GenerationError :=
  (inst.ports.find? PortMap.isEmpty).map (fun map =>
    .internal (.emptyBitMap map.formal inst.label))

theorem portAssociations_error? (dialect : Dialect) (label : String) (map : PortMap)
    : error? (portAssociations dialect label map)
      = if map.isEmpty then some (.internal (.emptyBitMap map.formal label)) else none := by
  obtain ⟨formal, actual⟩ := map
  cases actual with
  | whole | unconnected => cases dialect <;> rfl
  | perBit bits => cases bits <;> cases dialect <;> rfl

theorem instanceAssociations_error? (dialect : Dialect) (inst : Instance)
    : error? (instanceAssociations dialect inst) = inst.cause? := by
  have first
      : error? (instanceAssociations dialect inst)
        = error? (inst.ports.mapM (portAssociations dialect inst.label)) := by
    rw [instanceAssociations]
    cases inst.ports.mapM (portAssociations dialect inst.label) <;> rfl
  rw [first, error?_mapM, Instance.cause?]
  induction inst.ports with
  | nil => rfl
  | cons map maps ih =>
      rw [List.findSome?_cons, List.find?_cons, portAssociations_error?, ih]
      cases map.isEmpty <;> rfl

/-- Levels that a statement is indented by, at most. -/
def statementLevels : Nat := 3

section Instances

variable [Arithmetic]

instance (inst : Instance) (generics ports : List String)
    : Plain statementLevels (writeVhdlInstance inst generics ports) := by
  unfold writeVhdlInstance statementLevels
  infer_instance

instance (inst : Instance) (generics ports : List String)
    : Plain statementLevels (writeVerilogInstance inst generics ports) := by
  unfold writeVerilogInstance statementLevels
  infer_instance

/-- The associations of an instance are formed before anything is written, so an instance that
cannot form them leaves the page as it is.
-/
theorem leads_writeInstance (dialect : Dialect) (inst : Instance) {page : Page}
    (word : page.depth < Word.size)
    : Leads (writeInstance dialect inst) page
        (fun _ page' => inst.cause? = none ∧ page'.depth = page.depth)
        (fun cause page' =>
          inst.cause? = some cause ∧ page' = page
          ∨ cause = crowded ∧ Word.size ≤ page.depth + statementLevels) := by
  have formed := instanceAssociations_error? dialect inst
  refine leads_bind (M := fun _ page' => inst.cause? = none ∧ page' = page)
    (leads_ofExcept ?_ ?_) ?_
  · intro ports ok
    rw [ok] at formed
    exact ⟨formed.symm, rfl⟩
  · intro cause failed
    rw [failed] at formed
    exact .inl ⟨formed.symm, rfl⟩
  · rintro ports _ ⟨none, rfl⟩
    cases dialect with
    | vhdl =>
        refine (leads_plain statementLevels (writeVhdlInstance inst _ ports) word).imp ?_ ?_
        · exact fun _ _ ended => ⟨none, ended⟩
        · exact fun _ _ failed => .inr failed
    | verilog =>
        refine (leads_plain statementLevels (writeVerilogInstance inst _ ports) word).imp ?_ ?_
        · exact fun _ _ ended => ⟨none, ended⟩
        · exact fun _ _ failed => .inr failed

theorem writes_writeInstance (dialect : Dialect) (inst : Instance)
    : Writes statementLevels (writeInstance dialect inst) inst.cause? :=
  fun _ word =>
    (leads_writeInstance dialect inst word).imp (fun _ _ ended => ended) fun _ _ failed =>
      failed.imp_left And.left

end Instances

-----------------------------------------------------------------------------------------
-- Statements
-----------------------------------------------------------------------------------------

/-- Why a statement cannot be written. -/
def Statement.cause? : Statement → Option GenerationError
  | .instantiate inst => inst.cause?
  | _ => none

/-- Why an architecture cannot be written: the first of its statements that cannot be. -/
def Architecture.cause? (architecture : Architecture) : Option GenerationError :=
  architecture.statements.findSome? Statement.cause?

section Statements

variable [Arithmetic]

instance (levels : Nat) (dialect : Dialect) (remark : List String)
    : Plain levels (writeRemark dialect remark) := by
  unfold writeRemark
  infer_instance

instance (dialect : Dialect) (target : Expr) (arms : List (Expr × Expr)) (otherwise : Expr)
    : Plain statementLevels (writeConditional dialect target arms otherwise) := by
  unfold writeConditional statementLevels
  cases arms <;> infer_instance

instance (dialect : Dialect) (selection : Selection)
    : Plain statementLevels (writeSelection dialect selection) := by
  unfold writeSelection statementLevels
  cases dialect <;> infer_instance

instance (dialect : Dialect) (update : RegisterUpdate)
    : Plain statementLevels (writeRegister dialect update) := by
  unfold writeRegister statementLevels
  cases dialect <;> infer_instance

instance (levels : Nat) (text : String) : Plain levels (writeRaw text) := by
  have each (content : List Char)
      : Plain levels (match Text.trimEnd content with
        | [] => newline
        | kept => line (String.ofList kept)) := by
    split <;> infer_instance
  exact inferInstanceAs (Plain levels ((Text.lines text.toList).forM _))

theorem writes_writeStatement (dialect : Dialect) (statement : Statement)
    : Writes statementLevels (writeStatement dialect statement) statement.cause? := by
  cases statement with
  | remark remark => exact writes_plain _ (writeRemark dialect remark)
  | blank => exact writes_plain _ newline
  | assign target value => exact writes_plain _ (line _)
  | conditional target arms otherwise =>
      exact writes_plain _ (writeConditional dialect target arms otherwise)
  | select selection => exact writes_plain _ (writeSelection dialect selection)
  | register update => exact writes_plain _ (writeRegister dialect update)
  | instantiate inst => exact writes_writeInstance dialect inst
  | raw text => exact writes_plain _ (writeRaw text)

theorem writes_writeStatements (dialect : Dialect) (architecture : Architecture)
    : Writes (statementLevels + 1) (writeStatements dialect architecture.statements)
        architecture.cause? := by
  have inner := writes_forM (writes_writeStatement dialect) architecture.statements
  exact writes_before (writes_indented inner)

end Statements

-----------------------------------------------------------------------------------------
-- Declarations
-----------------------------------------------------------------------------------------

section Declarations

variable [Arithmetic]

/-- Why a declaration cannot be written: it is of no bits, and the build refuses the index before
the first one.
-/
def Width.cause? : Width → Option GenerationError
  | .fixed 0 => if Arithmetic.checksOverflow then some (.overflow .subtract) else none
  | _ => none

theorem subtract_one_error? {bits : Nat} (several : bits ≠ 1)
    : (error? (Word.subtract bits 1)).map GenerationError.overflow
      = Width.cause? (.fixed bits) := by
  unfold Word.subtract Width.cause?
  rcases bits with - | - | bits
  · cases Arithmetic.checksOverflow <;> rfl
  · exact absurd rfl several
  · simp [error?]

theorem vhdlType_error? (width : Width)
    : (error? (vhdlType width)).map .overflow = width.cause? := by
  cases width with
  | generic name => rfl
  | fixed bits =>
      by_cases single : bits = 1
      · subst single
        rfl
      · rw [← subtract_one_error? single, vhdlType, if_neg single]
        cases Word.subtract bits 1 <;> rfl

theorem verilogRange_error? (width : Width)
    : (error? (verilogRange width)).map .overflow = width.cause? := by
  cases width with
  | generic name => rfl
  | fixed bits =>
      by_cases single : bits = 1
      · subst single
        rfl
      · rw [← subtract_one_error? single, verilogRange, if_neg single]
        cases Word.subtract bits 1 <;> rfl

theorem vhdlPort_error? (port : PortDecl)
    : (error? (vhdlPort port)).map .overflow = port.width.cause? := by
  rw [← vhdlType_error?, vhdlPort]
  cases vhdlType port.width <;> rfl

theorem vhdlSignal_error? (signal : SignalDecl)
    : (error? (vhdlSignal signal)).map .overflow = signal.width.cause? := by
  rw [← vhdlType_error?, vhdlSignal]
  cases vhdlType signal.width <;> rfl

theorem verilogPort_error? (port : PortDecl)
    : (error? (verilogPort port)).map .overflow = port.width.cause? := by
  rw [← verilogRange_error?, verilogPort]
  cases verilogRange port.width <;> rfl

theorem verilogSignal_error? (signal : SignalDecl)
    : (error? (verilogSignal signal)).map .overflow = signal.width.cause? := by
  rw [← verilogRange_error?, verilogSignal]
  cases verilogRange signal.width <;> rfl

section Items

variable {α : Type} {levels : Nat} {form : α → Except Overflow String}
  {causeOf : α → Option GenerationError}

/-- Items fail for the first cause among theirs. -/
theorem writes_writeItems (causes : ∀ item, (error? (form item)).map .overflow = causeOf item)
    (separator : String) (items : List α)
    : Writes levels (writeItems separator form items) (items.findSome? causeOf) := by
  have formed : (error? (items.mapM form)).map .overflow = items.findSome? causeOf := by
    rw [error?_mapM, List.map_findSome?]
    exact congrArg (List.findSome? · items) (funext causes)
  rw [← formed]
  exact writes_computed

/-- What is left out for want of items fails for no other cause than theirs. -/
theorem writes_ifAny {items : List α} {block : PageM Unit}
    (any : Writes levels block (items.findSome? causeOf))
    : Writes levels (if !items.isEmpty then block else pure ()) (items.findSome? causeOf) := by
  cases items with
  | nil => exact writes_plain _ (pure ())
  | cons item items => exact any

/-- Where there are no items, only what comes behind them fails. -/
theorem writes_ifAny_else {items : List α} {full rest : PageM Unit}
    {more? : Option GenerationError}
    (any : Writes levels full ((items.findSome? causeOf).or more?))
    (none : Writes levels rest more?)
    : Writes levels (if !items.isEmpty then full else rest)
        ((items.findSome? causeOf).or more?) := by
  cases items with
  | nil => exact none
  | cons item items => exact any

theorem writes_writeClause (causes : ∀ item, (error? (form item)).map .overflow = causeOf item)
    (keyword : String) (items : List α)
    : Writes (levels + 1) (writeClause keyword form items) (items.findSome? causeOf) :=
  writes_ifAny
    (writes_after (writes_before (writes_indented (writes_writeItems causes ";" items))))

end Items

theorem writes_writeSignals {form : SignalDecl → Except Overflow String} {levels : Nat}
    (causes : ∀ signal, (error? (form signal)).map .overflow = signal.width.cause?)
    (signals : List SignalDecl)
    : Writes levels (writeSignals form signals)
        (signals.findSome? (fun signal => signal.width.cause?)) :=
  writes_forM (fun signal => causes signal ▸ writes_computed) signals

end Declarations

-----------------------------------------------------------------------------------------
-- Units
-----------------------------------------------------------------------------------------

/-- Levels that a unit is indented by, at most. -/
abbrev unitLevels : Nat := statementLevels + 1

section Units

variable [Arithmetic]

/-- Why a unit cannot be written: the first of its ports, signals and statements that cannot be. -/
def DesignUnit.cause? (unit : DesignUnit) : Option GenerationError :=
  (unit.ports.findSome? (fun port => port.width.cause?)).or
    ((unit.architecture.signals.findSome? (fun signal => signal.width.cause?)).or
      unit.architecture.cause?)

instance (levels : Nat) (dialect : Dialect) (name : String)
    : Plain levels (writeHeader dialect name) := by
  unfold writeHeader
  infer_instance

theorem writes_writeVhdlUnit (unit : DesignUnit)
    : Writes unitLevels (writeVhdlUnit unit) unit.cause? := by
  have generics
      : Writes statementLevels (writeClause "GENERIC" vhdlGeneric unit.generics)
          (unit.generics.findSome? fun _ => none) :=
    writes_writeClause (fun _ => rfl) "GENERIC" unit.generics
  rw [List.findSome?_eq_none_iff.mpr fun _ _ => rfl] at generics
  have ports
      : Writes statementLevels (writeClause "PORT" vhdlPort unit.ports)
          (unit.ports.findSome? fun port => port.width.cause?) :=
    writes_writeClause vhdlPort_error? "PORT" unit.ports
  have signals
      : Writes statementLevels
          (do
            if !unit.architecture.signals.isEmpty then
              newline
              writeSignals vhdlSignal unit.architecture.signals)
          (unit.architecture.signals.findSome? fun signal => signal.width.cause?) :=
    writes_ifAny (writes_after (writes_writeSignals vhdlSignal_error? unit.architecture.signals))
  have statements := writes_writeStatements .vhdl unit.architecture
  unfold writeVhdlUnit
  iterate 4 refine writes_after ?_
  refine writes_bind (writes_indented (writes_bind generics ports)) ?_
  iterate 3 refine writes_after ?_
  refine writes_bind (writes_indented signals) ?_
  iterate 2 refine writes_after ?_
  exact writes_before statements

theorem writes_writeVerilogUnit (unit : DesignUnit)
    : Writes unitLevels (writeVerilogUnit unit) unit.cause? := by
  have ports
      : Writes unitLevels (indented (writeItems "," verilogPort unit.ports))
          (unit.ports.findSome? fun port => port.width.cause?) :=
    writes_indented (writes_writeItems verilogPort_error? "," unit.ports)
  have signals
      : Writes unitLevels (indented (writeSignals verilogSignal unit.architecture.signals))
          (unit.architecture.signals.findSome? fun signal => signal.width.cause?) :=
    writes_indented (writes_writeSignals verilogSignal_error? unit.architecture.signals)
  have last
      : Writes unitLevels
          (newline >>= fun _ => writeStatements .verilog unit.architecture.statements
            >>= fun _ => line "endmodule") unit.architecture.cause? :=
    writes_after (writes_before (writes_writeStatements .verilog unit.architecture))
  have body
      : Writes unitLevels
          (do
            indented (writeItems "," verilogPort unit.ports)
            line ");"
            if !unit.architecture.signals.isEmpty then
              newline
              indented (writeSignals verilogSignal unit.architecture.signals)
            newline
            writeStatements .verilog unit.architecture.statements
            line "endmodule") unit.cause? :=
    writes_bind ports
      (writes_after (writes_ifAny_else (writes_after (writes_bind signals last)) last))
  refine writes_ite (writes_after body) ?_
  iterate 3 refine writes_after ?_
  exact body

theorem writes_writeUnit (dialect : Dialect) (unit : DesignUnit)
    : Writes unitLevels (writeUnit dialect unit) unit.cause? := by
  cases dialect with
  | vhdl => exact writes_after (writes_writeVhdlUnit unit)
  | verilog => exact writes_after (writes_writeVerilogUnit unit)

/-- Both languages render a unit, or fail for the same cause. -/
theorem DesignUnit.render_error? (dialect : Dialect) (unit : DesignUnit)
    : error? (unit.render dialect) = unit.cause? := by
  have ended := writes_writeUnit dialect unit .empty Word.size_pos
  rw [DesignUnit.render, written]
  cases ran : ((writeUnit dialect unit).run .empty).run with
  | mk result page =>
      cases result with
      | ok => exact (ended.of_succeeds ran).1.symm
      | error cause =>
          rcases ended.of_error ran with found | ⟨-, full⟩
          · exact found.symm
          · exact absurd full (by decide)

end Units

theorem PortMap.isEmpty_eq_false {map : PortMap} (filled : map.actual ≠ .perBit [])
    : map.isEmpty = false := by
  unfold isEmpty
  split
  · next empty => exact absurd empty filled
  · rfl

/-- A structural architecture can be written, since each of its ports is bound to something. -/
theorem Architecture.cause?_eq_none {fits : Prop} {scope : Scope} {architecture : Architecture}
    (structural : ∀ statement ∈ architecture.statements, statement.Structural fits scope)
    : architecture.cause? = none := by
  refine List.findSome?_eq_none_iff.mpr fun statement member => ?_
  cases structural statement member with
  | remark | blank | assign => rfl
  | @instantiate inst filled =>
      refine Option.map_eq_none_iff.mpr (List.find?_eq_none.mpr fun map listed => ?_)
      rw [PortMap.isEmpty_eq_false (filled map listed)]
      exact Bool.false_ne_true

end Hdl

end SchematicHdl
