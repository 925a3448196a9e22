import Mathlib.Data.List.Chain
import SchematicHdl.Net.Table

/-! Runs of copies, bit by bit. Merging loses nothing and adds nothing: the runs expand to the
copies that they were made of, in their order, and a run ends only where the next copy does not
continue it.
-/

namespace SchematicHdl.Net

-----------------------------------------------------------------------------------------
-- Runs and their copies
-----------------------------------------------------------------------------------------

/-- The point lies in an earlier net, or at a lower bit of the same net. -/
def Point.Before (a b : Point) : Prop := a.net < b.net ∨ (a.net = b.net ∧ a.bit < b.bit)

theorem Point.Before.ne {a b : Point} (before : a.Before b) : a ≠ b := by
  rintro rfl
  rcases before with net | ⟨-, bit⟩
  · exact Nat.lt_irrefl _ net
  · exact Nat.lt_irrefl _ bit

theorem Point.Before.asymm {a b : Point} (before : a.Before b) : ¬ b.Before a := by
  simp only [Point.Before] at before ⊢
  omega

namespace Run

/-- The point that a run copies into at one of its places. -/
def targetAt (run : Run) (i : Nat) : Point := ⟨run.target.net, run.target.bit + i⟩

/-- The point that a run copies from at one of its places. -/
def sourceAt (run : Run) (i : Nat) : Point := ⟨run.source.net, run.source.bit + i⟩

/-- The copies of single bits that a run stands for: what is copied into, and what from. -/
def copies (run : Run) : List (Point × Point) :=
  (List.range run.width).map (fun i => (run.targetAt i, run.sourceAt i))

theorem copies_single (target source : Point)
    : (Run.mk target source 1).copies = [(target, source)] := by
  simp [copies, targetAt, sourceAt]

/-- A run that continues a single copy is preceded by that copy. -/
theorem copies_merged {target source : Point} {run : Run}
    (continued : (Run.mk target source 1).continuedBy run.target run.source = true)
    : (Run.mk target source (run.width + 1)).copies = (target, source) :: run.copies := by
  simp only [continuedBy, Bool.and_eq_true, decide_eq_true_eq] at continued
  obtain ⟨⟨⟨targetNet, targetBit⟩, sourceNet⟩, sourceBit⟩ := continued
  simp only [copies, List.range_succ_eq_map, List.map_cons, List.map_map]
  refine congrArg₂ List.cons rfl (List.map_congr_left fun i _ => ?_)
  simp only [Function.comp_apply, targetAt, sourceAt, ← targetNet, ← targetBit, ← sourceNet,
    ← sourceBit, Nat.add_assoc, Nat.succ_eq_one_add]

/-- The targets of a run ascend. -/
theorem copies_ascending (run : Run)
    : run.copies.Pairwise (fun a b => a.1.Before b.1) := by
  rw [copies, List.pairwise_map]
  exact List.pairwise_lt_range.imp fun lower => Or.inr ⟨rfl, Nat.add_lt_add_left lower _⟩

/-- A run that continues a single copy goes on where it went on before. -/
theorem continuedBy_merged {target source : Point} {run : Run}
    (continued : (Run.mk target source 1).continuedBy run.target run.source = true)
    (nextTarget nextSource : Point)
    : (Run.mk target source (run.width + 1)).continuedBy nextTarget nextSource
      = run.continuedBy nextTarget nextSource := by
  simp only [continuedBy, Bool.and_eq_true, decide_eq_true_eq] at continued
  obtain ⟨⟨⟨targetNet, targetBit⟩, sourceNet⟩, sourceBit⟩ := continued
  simp only [continuedBy, targetNet, sourceNet, ← targetBit, ← sourceBit, Nat.add_assoc,
    Nat.add_comm 1]

theorem copies_getElem? {run : Run} {i : Nat} (lower : i < run.width)
    : run.copies[i]? = some (run.targetAt i, run.sourceAt i) := by
  simp [copies, lower]

/-- Two runs whose copies, one after the other, are those of a third run are continuous. -/
theorem continuedBy_of_copies_eq {run next merged : Run} (first : 0 < run.width)
    (second : 0 < next.width) (same : merged.copies = run.copies ++ next.copies)
    : run.continuedBy next.target next.source = true := by
  have length : run.copies.length = run.width := by simp [copies]
  have width : merged.width = run.width + next.width := by
    simpa [copies] using congrArg List.length same
  have atStart : merged.copies[0]? = run.copies[0]? := by
    rw [same, List.getElem?_append_left (length ▸ first)]
  have atJoint : merged.copies[run.width]? = next.copies[0]? := by
    rw [same, List.getElem?_append_right (Nat.le_of_eq length), length, Nat.sub_self]
  rw [copies_getElem? (by omega), copies_getElem? first] at atStart
  rw [copies_getElem? (by omega), copies_getElem? second] at atJoint
  simp only [Option.some.injEq, Prod.mk.injEq, targetAt, sourceAt, Point.mk.injEq, Nat.add_zero]
    at atStart atJoint
  simp only [continuedBy, Bool.and_eq_true, decide_eq_true_eq]
  omega

end Run

namespace Table

/-- Runs of at least one bit each, no run continued by the next one. -/
def Maximal (runs : List Run) : Prop :=
  (∀ run ∈ runs, 0 < run.width)
  ∧ runs.IsChain (fun run next => ¬ run.continuedBy next.target next.source = true)

/-- Merging keeps the copies and their order, by induction on the copies. -/
theorem flatMap_copies_toRuns (copies : List (Point × Point))
    : (toRuns copies).flatMap Run.copies = copies := by
  induction copies with
  | nil => rfl
  | cons copy rest ih =>
      obtain ⟨target, source⟩ := copy
      simp only [toRuns]
      cases merged : toRuns rest with
      | nil =>
          rw [merged] at ih
          obtain rfl : rest = [] := ih.symm
          simp [Run.copies_single]
      | cons run others =>
          rw [merged, List.flatMap_cons] at ih
          simp only
          split
          · next continued =>
              rw [List.flatMap_cons, Run.copies_merged continued, List.cons_append, ih]
          · rw [List.flatMap_cons, List.flatMap_cons, Run.copies_single, ih]
            rfl

/-- Every place of a run is one of the copies. -/
theorem mem_of_mem_toRuns {copies : List (Point × Point)} {run : Run}
    (member : run ∈ toRuns copies) {i : Nat} (lower : i < run.width)
    : (run.targetAt i, run.sourceAt i) ∈ copies := by
  rw [← flatMap_copies_toRuns copies, List.mem_flatMap]
  exact ⟨run, member, List.mem_map.mpr ⟨i, List.mem_range.mpr lower, rfl⟩⟩

/-- Merging stops only where a run is not continued, by induction on the copies. -/
theorem maximal_toRuns (copies : List (Point × Point)) : Maximal (toRuns copies) := by
  induction copies with
  | nil => exact ⟨nofun, .nil⟩
  | cons copy rest ih =>
      obtain ⟨target, source⟩ := copy
      simp only [toRuns]
      cases merged : toRuns rest with
      | nil => exact ⟨by simp, .singleton _⟩
      | cons run others =>
          rw [merged] at ih
          obtain ⟨positive, chain⟩ := ih
          simp only
          split
          · next continued =>
              refine ⟨?_, ?_⟩
              · intro other member
                rcases List.mem_cons.mp member with rfl | old
                · exact Nat.succ_pos _
                · exact positive other (List.mem_cons_of_mem _ old)
              · refine chain.imp_head fun stops => ?_
                rwa [Run.continuedBy_merged continued]
          · next stops =>
              refine ⟨?_, List.isChain_cons_cons.mpr ⟨stops, chain⟩⟩
              intro other member
              rcases List.mem_cons.mp member with rfl | old
              · exact Nat.one_pos
              · exact positive other old

end Table

end SchematicHdl.Net
