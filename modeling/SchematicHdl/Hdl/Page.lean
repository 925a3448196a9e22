import SchematicHdl.Failure

/-! Indented text under construction. Writing may fail; what was written before stays. -/

namespace SchematicHdl.Hdl

structure Page where
  text : String
  /-- Number of indents in front of each line, in a word. -/
  depth : Nat
deriving DecidableEq, Repr

abbrev PageM := ExceptT GenerationError (StateM Page)

namespace Page

def empty : Page := ⟨"", 0⟩

/-- One indent. -/
def indentText : String := "   "

def indentation : Nat → String
  | 0 => ""
  | depth + 1 => indentText ++ indentation depth

/-- The value of some arithmetic. Where it leaves its word, writing breaks off. -/
def computed {α : Type} (value : Except Overflow α) : PageM α :=
  MonadExcept.ofExcept (value.mapError .overflow)

def indent [Arithmetic] : PageM Unit := do
  let depth ← computed (Word.add (← get).depth 1)
  modify (fun page => { page with depth })

def unindent : PageM Unit := do
  match (← get).depth with
  | 0 => throw (.internal .indentUnderflow)
  | depth + 1 => modify (fun page => { page with depth })

/-- Writes an empty line, without indentation. -/
def newline : PageM Unit := modify (fun page => { page with text := page.text ++ "\n" })

/-- Writes an indented line. -/
def line (text : String) : PageM Unit :=
  modify (fun page => { page with text := page.text ++ indentation page.depth ++ text ++ "\n" })

def lines (texts : List String) : PageM Unit := texts.forM line

/-- Writes items one per line, separated. -/
def separatedLines (separator : String) : List String → PageM Unit
  | [] => pure ()
  | [item] => line item
  | item :: rest => do
      line (item ++ separator)
      separatedLines separator rest

/-- Writes a block one indent further in. -/
def indented [Arithmetic] (block : PageM Unit) : PageM Unit := do
  indent
  block
  unindent

/-- What a block writes on an empty page. -/
def written (block : PageM Unit) : Except GenerationError String :=
  match (block.run empty).run with
  | (.ok (), page) => .ok page.text
  | (.error error, _) => .error error

end Page

end SchematicHdl.Hdl
