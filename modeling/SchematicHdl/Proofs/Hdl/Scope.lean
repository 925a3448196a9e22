import Mathlib.Algebra.GroupWithZero.Nat
import SchematicHdl.Hdl.Unit
import SchematicHdl.Proofs.Outcome
import SchematicHdl.Text

/-! Names and widths in architectures. A scope lists the names that can be used, each with its
width. An expression has a width in a scope if it uses these names as they are declared: a name with
an index or a range is a vector, and its indices are below its width.
-/

namespace SchematicHdl.Hdl

-----------------------------------------------------------------------------------------
-- Scopes
-----------------------------------------------------------------------------------------

/-- The number of bits, under values of the generics. -/
def Width.value? (generics : List (String × Nat)) : Width → Option Nat
  | .fixed bits => some bits
  | .generic name => generics.lookup name

/-- Names with their widths, and generics with their values. -/
structure Scope where
  names : List (String × Nat)
  generics : List (String × Nat)

namespace DesignUnit

/-- The declared names of a unit with their declared widths: its ports and its signals. -/
def declarations (unit : DesignUnit) : List (String × Width) :=
  unit.ports.map (fun port => (port.name, port.width))
    ++ unit.architecture.signals.map (fun signal => (signal.name, signal.width))

/-- What the architecture of a unit can use, under values of its generics. -/
def scope (unit : DesignUnit) (generics : List (String × Nat)) : Scope :=
  ⟨unit.declarations.filterMap (fun declared =>
    (declared.2.value? generics).map (fun width => (declared.1, width))), generics⟩

end DesignUnit

-----------------------------------------------------------------------------------------
-- Widths of expressions
-----------------------------------------------------------------------------------------

/-- The expression uses names as they are declared, and it has a width. -/
inductive Expr.HasWidth (scope : Scope) : Expr → Nat → Prop
  | ref {name width} (declared : (name, width) ∈ scope.names) : HasWidth scope (.ref name) width
  | index {name position width} (declared : (name, width) ∈ scope.names) (vector : 1 < width)
    (inside : position < width)
    : HasWidth scope (.index name position) 1
  | slice {name high low width} (declared : (name, width) ∈ scope.names) (vector : 1 < width)
    (ordered : low ≤ high) (inside : high < width)
    : HasWidth scope (.slice name high low) (high - low + 1)
  | const {value width} : HasWidth scope (.const value width) width
  | filled {bit declared width} (known : declared.value? scope.generics = some width)
    : HasWidth scope (.filled bit declared) width
  | concat {parts : List Expr} {widths : List Nat} (length : parts.length = widths.length)
    (each
      : ∀ (i : Nat) part width,
          parts[i]? = some part → widths[i]? = some width → HasWidth scope part width)
    : HasWidth scope (.concat parts) widths.sum
  | not {source width} (typed : HasWidth scope source width) : HasWidth scope (.not source) width
  | binary {op} {operands : List Expr} {width}
    (each : ∀ operand ∈ operands, HasWidth scope operand width)
    : HasWidth scope (.binary op operands) width
  | equals {lhs rhs width} (left : HasWidth scope lhs width) (right : HasWidth scope rhs width)
    : HasWidth scope (.equals lhs rhs) 1

/-- An actual fits a port of a width. One expression per bit is given for vectors only. -/
def Actual.HasWidth (scope : Scope) : Actual → Nat → Prop
  | .whole expr, width => expr.HasWidth scope width
  | .perBit bits, width =>
      1 < width ∧ bits.length = width ∧ ∀ bit ∈ bits, bit.HasWidth scope 1
  | .unconnected, _ => True

/-- An assignment between expressions of one width. -/
def Statement.Assigns (scope : Scope) (statement : Statement) : Prop :=
  ∃ target value width,
    statement = .assign target value
    ∧ target.HasWidth scope width
    ∧ value.HasWidth scope width

/-- An assignment, between expressions of one width if everything fits. -/
structure Statement.AssignsIf (fits : Prop) (scope : Scope) (statement : Statement) : Prop where
  assignment : ∃ target value, statement = .assign target value
  typed : fits → statement.Assigns scope

/-- A statement of a structural architecture. No port is bound bit by bit without any bit, and if
everything fits, both sides of an assignment have one width and whatever is bound has a width.
-/
inductive Statement.Structural (fits : Prop) (scope : Scope) : Statement → Prop
  | remark {lines} : Structural fits scope (.remark lines)
  | blank : Structural fits scope .blank
  | assign {target value} (typed : fits → (Statement.assign target value).Assigns scope)
    : Structural fits scope (.assign target value)
  | instantiate {inst} (filled : ∀ port ∈ inst.ports, port.actual ≠ .perBit [])
    (typed : fits → ∀ port ∈ inst.ports, ∃ width, port.actual.HasWidth scope width)
    : Structural fits scope (.instantiate inst)

def Statement.instance? : Statement → Option Instance
  | .instantiate inst => some inst
  | _ => none

/-- An instance binds a declared port: under its name, with an actual of its width, and with
nothing at all only where the port does not read.
-/
structure PortMap.Binds (scope : Scope) (generics : List (String × Nat)) (declared : PortDecl)
    (map : PortMap)
    : Prop where
  formal_eq : map.formal = declared.name
  fits
    : ∃ width, declared.width.value? generics = some width ∧ map.actual.HasWidth scope width
  driven : map.actual = .unconnected → declared.direction ≠ .input

/-- An instance fits a unit: it gives a value to each of its generics and binds each of its ports,
in their order.
-/
structure Instance.Links (scope : Scope) (unit : DesignUnit) (inst : Instance) : Prop where
  unit_eq : inst.unit = unit.name
  generics_eq : inst.generics.map Prod.fst = unit.generics
  ports : List.Forall₂ (PortMap.Binds scope inst.generics) unit.ports inst.ports

/-- An instance names a declared port and binds it to something, or leaves it open where the port
does not read.
-/
structure PortMap.Meets (declared : PortDecl) (map : PortMap) : Prop where
  formal_eq : map.formal = declared.name
  filled : map.actual ≠ .perBit []
  driven : map.actual = .unconnected → declared.direction ≠ .input

/-- An instance names a unit with its generics and its ports, in their order, and if everything
fits, it fits the unit.
-/
structure Instance.LinksIf (fits : Prop) (scope : Scope) (unit : DesignUnit) (inst : Instance)
    : Prop where
  unit_eq : inst.unit = unit.name
  generics_eq : inst.generics.map Prod.fst = unit.generics
  ports : List.Forall₂ PortMap.Meets unit.ports inst.ports
  links : fits → inst.Links scope unit

section Weakening

variable {scope wider : Scope}

/-- More names leave widths as they are, by induction on the width of the expression. -/
theorem Expr.HasWidth.mono {expr : Expr} {width : Nat} (typed : expr.HasWidth scope width)
    (names : scope.names ⊆ wider.names) (generics : wider.generics = scope.generics)
    : expr.HasWidth wider width := by
  induction typed with
  | ref declared => exact .ref (names declared)
  | index declared vector inside => exact .index (names declared) vector inside
  | slice declared vector ordered inside => exact .slice (names declared) vector ordered inside
  | const => exact .const
  | filled known => exact .filled (generics ▸ known)
  | concat length _ ih => exact .concat length ih
  | not _ ih => exact .not ih
  | binary _ ih => exact .binary ih
  | equals _ _ left right => exact .equals left right

theorem Actual.HasWidth.mono {actual : Actual} {width : Nat}
    (typed : actual.HasWidth scope width) (names : scope.names ⊆ wider.names)
    (generics : wider.generics = scope.generics)
    : actual.HasWidth wider width := by
  cases actual with
  | whole expr => exact Expr.HasWidth.mono typed names generics
  | perBit bits =>
      exact ⟨typed.1, typed.2.1, fun bit member => (typed.2.2 bit member).mono names generics⟩
  | unconnected => trivial

/-- What has a width is not bound bit by bit without any bit. -/
theorem Actual.HasWidth.filled {actual : Actual} {width : Nat} (typed : actual.HasWidth scope width)
    : actual ≠ .perBit [] := by
  rintro rfl
  obtain ⟨several, rfl, -⟩ := typed
  cases several

theorem Instance.Links.mono {unit : DesignUnit} {inst : Instance} (links : inst.Links scope unit)
    (names : scope.names ⊆ wider.names) (generics : wider.generics = scope.generics)
    : inst.Links wider unit where
  unit_eq := links.unit_eq
  generics_eq := links.generics_eq
  ports :=
    links.ports.imp fun _ _ binds =>
      ⟨binds.formal_eq, binds.fits.imp fun _ fits => ⟨fits.1, fits.2.mono names generics⟩,
        binds.driven⟩

theorem Statement.Assigns.mono {statement : Statement} (assigns : statement.Assigns scope)
    (names : scope.names ⊆ wider.names) (generics : wider.generics = scope.generics)
    : statement.Assigns wider := by
  obtain ⟨target, value, width, rfl, left, right⟩ := assigns
  exact ⟨target, value, width, rfl, left.mono names generics, right.mono names generics⟩

section Fitting

variable {fits : Prop} {statement : Statement}

theorem Statement.assignsIf_of_assigns {statements : List Statement}
    (each : ∀ statement ∈ statements, statement.Assigns scope)
    : ∀ statement ∈ statements, statement.AssignsIf fits scope :=
  fun statement member =>
    have assigns := each statement member
    ⟨assigns.imp fun _ ⟨value, _, same, _⟩ => ⟨value, same⟩, fun _ => assigns⟩

theorem Statement.AssignsIf.mono (assigns : statement.AssignsIf fits scope)
    (names : scope.names ⊆ wider.names) (generics : wider.generics = scope.generics)
    : statement.AssignsIf fits wider where
  assignment := assigns.assignment
  typed inside := (assigns.typed inside).mono names generics

theorem Statement.AssignsIf.instance?_eq_none (assigns : statement.AssignsIf fits scope)
    : statement.instance? = none := by
  obtain ⟨target, value, rfl⟩ := assigns.assignment
  rfl

theorem Statement.AssignsIf.structural (assigns : statement.AssignsIf fits scope)
    : statement.Structural fits scope := by
  obtain ⟨⟨target, value, rfl⟩, typed⟩ := assigns
  exact .assign typed

end Fitting

theorem Statement.eq_of_instance? {statement : Statement} {inst : Instance}
    (found : statement.instance? = some inst)
    : statement = .instantiate inst := by
  cases statement <;> simp_all [instance?]

theorem Instance.LinksIf.mono {fits stronger : Prop} {unit : DesignUnit} {inst : Instance}
    (links : inst.LinksIf fits scope unit) (stronger_fits : stronger → fits)
    (names : scope.names ⊆ wider.names) (generics : wider.generics = scope.generics)
    : inst.LinksIf stronger wider unit where
  unit_eq := links.unit_eq
  generics_eq := links.generics_eq
  ports := links.ports
  links inside := (links.links (stronger_fits inside)).mono names generics

/-- What an instance binds to the ports of a unit has the widths of the ports. -/
theorem Instance.Links.typed {unit : DesignUnit} {inst : Instance} (links : inst.Links scope unit)
    : ∀ port ∈ inst.ports, ∃ width, port.actual.HasWidth scope width := by
  intro map member
  obtain ⟨declared, -, binds⟩ := Outcome.forall₂_mem_right links.ports member
  exact binds.fits.imp fun _ fits => fits.2

/-- An instance is a statement of a structural architecture. -/
theorem Instance.LinksIf.structural {fits : Prop} {unit : DesignUnit} {inst : Instance}
    (links : inst.LinksIf fits scope unit)
    : (Statement.instantiate inst).Structural fits scope := by
  refine .instantiate (fun map member => ?_) fun inside => (links.links inside).typed
  obtain ⟨declared, -, meets⟩ := Outcome.forall₂_mem_right links.ports member
  exact meets.filled

end Weakening

-----------------------------------------------------------------------------------------
-- Uses of names
-----------------------------------------------------------------------------------------

/-- How a name occurs in an expression. -/
inductive NameUse where
  | whole (name : String)
  /-- With an index, or with a range between two indices. -/
  | bits (name : String) (high low : Nat)
deriving DecidableEq, Repr

mutual
def Expr.uses : Expr → List NameUse
  | .ref name => [.whole name]
  | .index name position => [.bits name position position]
  | .slice name high low => [.bits name high low]
  | .const _ _ => []
  | .filled _ _ => []
  | .concat parts => usesOfAll parts
  | .not source => source.uses
  | .binary _ operands => usesOfAll operands
  | .equals lhs rhs => lhs.uses ++ rhs.uses

def Expr.usesOfAll : List Expr → List NameUse
  | [] => []
  | expr :: rest => expr.uses ++ usesOfAll rest
end

def Actual.uses : Actual → List NameUse
  | .whole expr => expr.uses
  | .perBit bits => Expr.usesOfAll bits
  | .unconnected => []

/-- The names in the targets, values and actuals of a structural statement; nothing is known of the
names in any other statement.
-/
def Statement.uses? : Statement → Option (List NameUse)
  | .remark _ => some []
  | .blank => some []
  | .assign target value => some (target.uses ++ value.uses)
  | .instantiate inst => some (inst.ports.flatMap (fun port => port.actual.uses))
  | _ => none

/-- The name is declared; with an index or a range it is a vector that has these indices. -/
def NameUse.Declared (names : List (String × Nat)) : NameUse → Prop
  | .whole name => ∃ width, (name, width) ∈ names
  | .bits name high low =>
      ∃ width, (name, width) ∈ names ∧ 1 < width ∧ low ≤ high ∧ high < width

/-- The architecture of a unit uses declared names only, as they are declared, and all its names are
different, whatever their letter case.
-/
structure DesignUnit.WellScoped (unit : DesignUnit) (generics : List (String × Nat)) : Prop where
  declared
    : ∀ statement ∈ unit.architecture.statements,
        ∃ uses,
          statement.uses? = some uses
          ∧ ∀ use ∈ uses, use.Declared (unit.scope generics).names
  distinct
    : ((unit.ports.map PortDecl.name
          ++ unit.architecture.signals.map SignalDecl.name
          ++ (unit.architecture.statements.filterMap Statement.instance?).map Instance.label).map
        Text.foldCase).Nodup

theorem Expr.mem_usesOfAll {exprs : List Expr} {use : NameUse}
    : use ∈ usesOfAll exprs ↔ ∃ expr ∈ exprs, use ∈ expr.uses := by
  induction exprs with
  | nil => simp [usesOfAll]
  | cons expr rest ih => simp [usesOfAll, ih]

/-- An expression that has a width uses declared names only, by induction on its width. -/
theorem Expr.HasWidth.declared {scope : Scope} {expr : Expr} {width : Nat}
    (typed : expr.HasWidth scope width)
    : ∀ use ∈ expr.uses, use.Declared scope.names := by
  induction typed with
  | ref declared => simpa [uses, NameUse.Declared] using ⟨_, declared⟩
  | index declared vector inside =>
      simpa [uses, NameUse.Declared] using ⟨_, declared, vector, inside⟩
  | slice declared vector ordered inside =>
      simpa [uses, NameUse.Declared] using ⟨_, declared, vector, ordered, inside⟩
  | const => simp [uses]
  | filled known => simp [uses]
  | concat length _ ih =>
      intro use member
      obtain ⟨part, listed, used⟩ := mem_usesOfAll.1 (by simpa only [uses] using member)
      obtain ⟨i, found⟩ := List.getElem?_of_mem listed
      have inside := (List.getElem?_eq_some_iff.mp found).1
      exact ih i part _ found (List.getElem?_eq_getElem (length ▸ inside)) use used
  | not _ ih => simpa only [uses] using ih
  | binary _ ih =>
      intro use member
      obtain ⟨operand, listed, used⟩ := mem_usesOfAll.1 (by simpa only [uses] using member)
      exact ih operand listed use used
  | equals _ _ left right =>
      intro use member
      simp only [uses, List.mem_append] at member
      exact member.elim (left use) (right use)

theorem Actual.HasWidth.declared {scope : Scope} {actual : Actual} {width : Nat}
    (typed : actual.HasWidth scope width)
    : ∀ use ∈ actual.uses, use.Declared scope.names := by
  cases actual with
  | whole expr => exact Expr.HasWidth.declared typed
  | perBit bits =>
      intro use member
      obtain ⟨bit, listed, used⟩ := Expr.mem_usesOfAll.1 member
      exact (typed.2.2 bit listed).declared use used
  | unconnected => simp [uses]

theorem Statement.Structural.declared {fits : Prop} {scope : Scope} {statement : Statement}
    (structural : statement.Structural fits scope) (inside : fits)
    : ∃ uses, statement.uses? = some uses ∧ ∀ use ∈ uses, use.Declared scope.names := by
  cases structural with
  | remark => exact ⟨_, rfl, by simp⟩
  | blank => exact ⟨_, rfl, by simp⟩
  | assign typed =>
      obtain ⟨_, _, width, same, left, right⟩ := typed inside
      obtain ⟨rfl, rfl⟩ := Statement.assign.inj same
      refine ⟨_, rfl, fun use member => ?_⟩
      exact (List.mem_append.mp member).elim (left.declared use) (right.declared use)
  | instantiate _ typed =>
      refine ⟨_, rfl, fun use member => ?_⟩
      obtain ⟨port, listed, used⟩ := List.mem_flatMap.mp member
      obtain ⟨width, typed⟩ := typed inside port listed
      exact typed.declared use used

end SchematicHdl.Hdl
