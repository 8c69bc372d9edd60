import Sicxe.Proofs.Assembly.Layout
import Sicxe.Proofs.Assembly.Moved.Value

/-!
# Placing the statements of a moved program

Two programs at different addresses are placed side by side. `Placing.Moved` says that the same is
known about both, at addresses that differ by the same distance, and every statement keeps it
(`Placing.Moved.place`).
-/

namespace Sicxe

variable {distance : Int}

namespace Placing

/-- What is known about a program, and the same in the program moved by `distance`. -/
structure Moved (distance : Int) (placing moved : Placing) : Prop where
  name : moved.name = placing.name
  start : Shifted distance placing.start moved.start
  counter : Shifted distance placing.counter moved.counter
  symbols : placing.symbols.Moved distance moved.symbols
  imports : moved.imports = placing.imports
  pool : List.Forall₂ (LiteralPool.EntryMoved distance) placing.pool.entries moved.pool.entries
  lines : List.Forall₂ (PlacedLine.Moved distance) placing.lines.toList moved.lines.toList
  limit : placing.counter ≤ maxAddress
  limitMoved : moved.counter ≤ maxAddress

/-- An operand whose value is an address of the program has a value of 32 bits. -/
def AddressFits (placing : Placing) (text : String) : Prop :=
  ∀ value, placing.eval text = .ok value → value.external = none → value.relative = 1 → value.Fits

theorem related_liftSymbol {α β : Type} {relation : α → β → Prop} {first : Except SymbolError α}
    {second : Except SymbolError β} (related : Related relation first second) :
    Related relation (liftSymbol first) (liftSymbol second) :=
  fun result other succeeded succeededSecond => related result other
    (liftSymbol_eq_ok_iff.mp succeeded) (liftSymbol_eq_ok_iff.mp succeededSecond)

namespace Moved

variable {placing moved : Placing} {statement : Statement}

theorem eval (related : Moved distance placing moved) (text : String) :
    Related (fun value other => other = value.moved distance) (placing.eval text)
      (moved.eval text) := by
  unfold Placing.eval
  rw [related.imports]
  exact Value.ofText_moved related.symbols.get? related.counter _ text

theorem contains_imports (related : Moved distance placing moved) (name : String) :
    moved.imports.contains name = placing.imports.contains name := by
  rw [related.imports]

/-- Symbols that are defined alike. -/
theorem define {label : String} {address addressMoved : UInt32}
    (related : Moved distance placing moved) (absolute : Bool)
    (shifted : Shifted (if absolute then 0 else distance) address.toNat addressMoved.toNat) :
    Related (Moved distance)
      ((liftSymbol (placing.symbols.defineAs label address absolute)).bind fun symbols =>
        .ok { placing with symbols })
      ((liftSymbol (moved.symbols.defineAs label addressMoved absolute)).bind fun symbols =>
        .ok { moved with symbols }) :=
  (related_liftSymbol (related.symbols.defineAs label shifted)).bind fun _ _ symbols =>
    .ok { related with symbols }

theorem defineLabel (related : Moved distance placing moved) (statement : Statement) :
    Related (Moved distance) (placing.defineLabel statement) (moved.defineLabel statement) := by
  unfold Placing.defineLabel
  cases statement.label with
  | none => exact .ok related
  | some label =>
    dsimp only
    rw [related.contains_imports]
    split
    · exact .error_left
    · exact related.define false (related.counter.ofNat related.limit related.limitMoved)

theorem exportName (related : Moved distance placing moved) (name : List Char) :
    Related (Moved distance) (placing.exportName name) (moved.exportName name) := by
  unfold Placing.exportName
  dsimp only
  split
  · exact .error_left
  · exact .ok { related with symbols := related.symbols.publish _ }

theorem importName (related : Moved distance placing moved) (name : List Char) :
    Related (Moved distance) (placing.importName name) (moved.importName name) := by
  unfold Placing.importName
  dsimp only
  rw [related.symbols.isDefined, related.imports]
  split
  · exact .error_left
  · split
    · exact .error_left
    · exact .ok { related with imports := rfl }

/-- The value of `EQU` is the same constant or the moved address. -/
theorem defineEqual {label operand : String} (related : Moved distance placing moved)
    (fits : placing.AddressFits operand) (fitsMoved : moved.AddressFits operand) :
    Related (Moved distance) (placing.defineEqual label operand)
      (moved.defineEqual label operand) := by
  refine (related.eval operand).remember.bind ?_
  rintro value _ ⟨rfl, evaluated, evaluatedMoved⟩
  rw [related.contains_imports]
  split
  · exact .error_left
  · -- Whether a value is a constant or an address is the same in both programs.
    have sameKind : (value.moved distance).isAbsolute = value.isAbsolute := rfl
    rw [sameKind]
    split
    · rename_i isAbsolute
      have fixed : value.relative = 0 := by
        simp only [Value.isAbsolute, Bool.and_eq_true, beq_iff_eq] at isAbsolute
        exact isAbsolute.1
      rw [Value.moved_of_relative fixed]
      split
      · exact .error_left
      · exact related.define true (Int.add_zero _).symm
    · show Related _ (if value.relative = 1 ∧ value.external = none then _ else _)
        (if value.relative = 1 ∧ value.external = none then _ else _)
      split
      · rename_i isAddress
        exact related.define false (Value.shifted_of_fits isAddress.1
          (fits value evaluated isAddress.2 isAddress.1)
          (fitsMoved _ evaluatedMoved isAddress.2 isAddress.1))
      · exact .error_left

theorem addLiteral (related : Moved distance placing moved) (found : Operation)
    (operand : Option String) :
    Related (Moved distance) (placing.addLiteral found operand)
      (moved.addLiteral found operand) := by
  unfold Placing.addLiteral
  cases operand with
  | none => exact .ok related
  | some text =>
    dsimp only
    split
    · refine (Related.same (MemoryOperand.parse text)).bind ?_
      rintro operand _ rfl
      cases operand.target with
      | literal literal =>
        exact .ok { related with pool := LiteralPool.add_moved related.pool literal }
      | expression => exact .ok related
    · exact .ok related

/-- The same statement takes the next place. -/
theorem push (related : Moved distance placing moved) (line : Nat) (statement : Statement)
    {size : Nat} (limit : placing.counter + size ≤ maxAddress)
    (limitMoved : moved.counter + size ≤ maxAddress) :
    Moved distance (placing.push line statement size) (moved.push line statement size) := by
  refine { related with counter := ?_, lines := ?_, limit, limitMoved }
  · have counter := related.counter
    unfold Shifted at counter
    show ((moved.counter + size : Nat) : Int) = (placing.counter + size : Nat) + distance
    omega
  · rw [lines_push, lines_push]
    exact List.rel_append related.lines
      (.cons ⟨rfl, rfl, rfl, fun _ => rfl, related.counter, rfl⟩ .nil)

theorem reserve (related : Moved distance placing moved) (line : Nat) (statement : Statement)
    (size : Nat) :
    Related (Moved distance) (placing.reserve line statement size)
      (moved.reserve line statement size) := by
  intro next nextMoved succeeded succeededMoved
  obtain ⟨limit, rfl⟩ := checkCounter_eq_ok_iff.mp succeeded
  obtain ⟨limitMoved, rfl⟩ := checkCounter_eq_ok_iff.mp succeededMoved
  exact related.push line statement limit limitMoved

theorem flush (related : Moved distance placing moved) (line : Nat) (statement : Statement) :
    Related (Moved distance) (placing.flush line statement) (moved.flush line statement) := by
  have pushed : Moved distance (placing.push line statement 0) (moved.push line statement 0) :=
    related.push line statement related.limit related.limitMoved
  intro next nextMoved succeeded succeededMoved
  unfold Placing.flush at succeeded succeededMoved
  dsimp only at succeeded succeededMoved
  split at succeeded
  · cases succeeded
  · rename_i complete
    split at succeededMoved
    · cases succeededMoved
    · rename_i completeMoved
      obtain ⟨limit, rfl⟩ := checkCounter_eq_ok_iff.mp succeeded
      obtain ⟨limitMoved, rfl⟩ := checkCounter_eq_ok_iff.mp succeededMoved
      obtain ⟨pool, counter, lines⟩ :=
        LiteralPool.flushEntries_moved pushed.pool pushed.counter complete completeMoved
      refine { pushed with counter, pool, lines := ?_, limit, limitMoved }
      rw [Array.appendList_eq_append, Array.toList_appendList, Array.appendList_eq_append,
        Array.toList_appendList]
      exact List.rel_append pushed.lines lines

theorem placeEqual (related : Moved distance placing moved) (line : Nat)
    (fits : placing.AddressFits (statement.operand.getD ""))
    (fitsMoved : moved.AddressFits (statement.operand.getD "")) :
    Related (Moved distance) (placing.placeEqual line statement)
      (moved.placeEqual line statement) := by
  unfold Placing.placeEqual
  cases statement.label with
  | none => exact .error_left
  | some label =>
    exact (related.defineEqual fits fitsMoved).bind fun _ _ defined =>
      .ok (defined.push line statement defined.limit defined.limitMoved)

theorem placeReserve (related : Moved distance placing moved) (line : Nat) (statement : Statement)
    (unit : Nat) :
    Related (Moved distance) (placing.placeReserve line statement unit)
      (moved.placeReserve line statement unit) := by
  refine (related.defineLabel statement).bind fun next nextMoved labelled => ?_
  refine (labelled.eval _).bind ?_
  rintro count _ rfl
  have sameKind : (count.moved distance).isAbsolute = count.isAbsolute := rfl
  rw [sameKind]
  split
  · exact .error_left
  · rename_i isAbsolute
    have fixed : count.relative = 0 := by
      simp only [Value.isAbsolute, Bool.not_eq_true', Bool.not_eq_false, Bool.and_eq_true,
        beq_iff_eq] at isAbsolute
      exact isAbsolute.1
    rw [Value.moved_of_relative fixed]
    split
    · exact .error_left
    · exact labelled.reserve line statement _

theorem placeOperation (related : Moved distance placing moved) (line : Nat)
    (statement : Statement) (found : Operation) (extended : Bool) :
    Related (Moved distance) (placing.placeOperation line statement found extended)
      (moved.placeOperation line statement found extended) :=
  (related.defineLabel statement).bind fun _ _ labelled =>
    (labelled.addLiteral found statement.operand).bind fun _ _ pooled =>
      pooled.reserve line statement _

/-- **A statement behind `START` is placed alike in the moved program.** The address that `EQU`
gives to its label must have 32 bits in both programs. -/
theorem place (related : Moved distance placing moved) (line : Nat)
    (fits : statement.command = .directive .EQU →
      placing.AddressFits (statement.operand.getD ""))
    (fitsMoved : statement.command = .directive .EQU →
      moved.AddressFits (statement.operand.getD "")) :
    Related (Moved distance) (placing.place line false statement)
      (moved.place line false statement) := by
  unfold Placing.place
  dsimp only
  split
  · exact .error_left
  · exact related.flush line statement
  · exact (Related.foldlM (fun _ _ name pair => pair.exportName name) related).bind
      fun _ _ exported => exported.reserve line statement 0
  · exact (Related.foldlM (fun _ _ name pair => pair.importName name) related).bind
      fun _ _ imported => imported.reserve line statement 0
  · rename_i isEqual
    exact related.placeEqual line (fits isEqual) (fitsMoved isEqual)
  · exact (related.defineLabel statement).bind fun _ _ labelled => labelled.flush line statement
  · exact (related.defineLabel statement).bind fun _ _ labelled => labelled.reserve line statement 0
  · exact (related.defineLabel statement).bind fun _ _ labelled => labelled.reserve line statement 0
  · exact (related.defineLabel statement).bind fun _ _ labelled => labelled.reserve line statement 3
  · refine (related.defineLabel statement).bind fun _ _ labelled => ?_
    refine (Related.same (readBytes _)).bind ?_
    rintro bytes _ rfl
    exact labelled.reserve line statement bytes.length
  · exact related.placeReserve line statement 1
  · exact related.placeReserve line statement 3
  · exact related.placeOperation line statement _ _

end Moved

end Placing

end Sicxe
