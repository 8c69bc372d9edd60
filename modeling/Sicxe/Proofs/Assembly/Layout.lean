import Sicxe.Proofs.Assembly.Placing

/-!
# The layout of a placement

The lines of a placement follow one another without gaps from its start to its end
(`Placement.follows`), and every line has the size that its command takes (`Placement.sized`). Both
are kept by every statement (`Placing.Placed.laid`).
-/

namespace Sicxe

/-- Lines that take the addresses from `address` up to `limit` one after another. -/
def Follows (address : Nat) : List PlacedLine → Nat → Prop
  | [], limit => address = limit
  | line :: rest, limit => line.address = address ∧ Follows (address + line.size) rest limit

theorem follows_append {address limit : Nat} {before after : List PlacedLine} :
    Follows address (before ++ after) limit ↔
      ∃ middle, Follows address before middle ∧ Follows middle after limit := by
  induction before generalizing address with
  | nil =>
    constructor
    · exact fun follows => ⟨address, rfl, follows⟩
    · rintro ⟨_, rfl, follows⟩
      exact follows
  | cons line rest ih =>
    simp only [List.cons_append, Follows, ih]
    constructor
    · rintro ⟨here, middle, first, second⟩
      exact ⟨middle, ⟨here, first⟩, second⟩
    · rintro ⟨middle, ⟨here, first⟩, second⟩
      exact ⟨here, middle, first, second⟩

theorem Follows.le {address limit : Nat} {lines : List PlacedLine}
    (follows : Follows address lines limit) : address ≤ limit := by
  induction lines generalizing address with
  | nil => exact Nat.le_of_eq follows
  | cons line rest ih =>
    have := ih follows.2
    omega

/-- A literal is what its body reads as. -/
theorem Literal.parse_cases {text : String} {literal : Literal}
    (parsed : Literal.parse text = .ok literal) :
    (∃ content, literal = .bytes content ∧ readBytes (body text.toList) = .ok content) ∨
      ∃ number, literal = .word number ∧ readInteger (body text.toList) = .ok number := by
  unfold Literal.parse at parsed
  dsimp only at parsed
  split at parsed
  · obtain ⟨content, read, same⟩ := map_eq_ok_iff.mp parsed
    exact Or.inl ⟨content, same.symm, read⟩
  · obtain ⟨number, read, same⟩ := map_eq_ok_iff.mp parsed
    exact Or.inr ⟨number, same.symm, read⟩

namespace LiteralPool

/-- The line of a literal has the size of the literal. -/
theorem sized_dataLine {text : String} {literal : Literal}
    (parsed : Literal.parse text = .ok literal) (address : Nat) :
    (dataLine text address literal.size).Sized := by
  rcases Literal.parse_cases parsed with ⟨content, rfl, read⟩ | ⟨number, rfl, _⟩
  · simp only [dataLine, data, parsed, PlacedLine.Sized, Literal.size, Option.getD_some,
      String.toList_ofList]
    exact ⟨content, read, rfl⟩
  · simp [dataLine, data, parsed, PlacedLine.Sized, Literal.size]

/-- **The lines of flushed literals follow one another.** -/
theorem flushEntries_follows {counter : Nat} {entries : List (String × Option Nat)}
    (complete : (flushEntries counter entries).error = none) :
    Follows counter (flushEntries counter entries).lines (flushEntries counter entries).counter ∧
      ∀ line ∈ (flushEntries counter entries).lines, line.Sized := by
  fun_induction flushEntries counter entries with
  | case1 => exact ⟨rfl, fun _ member => by cases member⟩
  | case2 counter text address rest flushed ih => exact ih complete
  | case3 => cases complete
  | case4 counter text rest literal parsed flushed ih =>
    obtain ⟨follows, sized⟩ := ih complete
    refine ⟨⟨rfl, follows⟩, fun line member => ?_⟩
    rcases List.mem_cons.mp member with rfl | member
    · exact sized_dataLine parsed counter
    · exact sized line member

end LiteralPool

/-- What every statement keeps of the layout. -/
structure Placing.Laid (placing : Placing) : Prop where
  start : placing.start < maxAddress
  limit : placing.counter ≤ maxAddress
  follows : Follows placing.start placing.lines.toList placing.counter
  sized : ∀ placed ∈ placing.lines.toList, placed.Sized

namespace Placing

variable {placing next : Placing} {line : Nat} {first : Bool} {statement : Statement}

theorem lines_push (placing : Placing) (line : Nat) (statement : Statement) (size : Nat) :
    (placing.push line statement size).lines.toList = placing.lines.toList ++
      [⟨line, statement.label, statement.command, statement.operand, placing.counter, size⟩] :=
  Array.toList_push

theorem lines_pool (placing : Placing) (line : Nat) (statement : Statement)
    (pool : List PlacedLine) :
    ((placing.push line statement 0).lines.appendList pool).toList = (placing.lines.toList ++
      [⟨line, statement.label, statement.command, statement.operand, placing.counter, 0⟩]) ++
        pool := by
  rw [Array.appendList_eq_append, Array.toList_appendList, lines_push]

/-- **A statement keeps the layout.** -/
theorem Placed.laid (fresh : first = true → placing = {}) (laid : placing.Laid)
    (placed : Placed placing line first statement next) : next.Laid := by
  cases placed with
  | start isStart isFirst bounded unnamed =>
    cases fresh isFirst
    exact ⟨bounded, Nat.le_of_lt bounded, ⟨rfl, rfl⟩, by simp [push, PlacedLine.Sized, isStart]⟩
  | startNamed isStart isFirst bounded named defined =>
    cases fresh isFirst
    exact ⟨bounded, Nat.le_of_lt bounded, ⟨rfl, rfl⟩, by simp [push, PlacedLine.Sized, isStart]⟩
  | @reserve declared size isOther declaration sized bounded =>
    obtain ⟨_, start, counter, lines⟩ := declaration.keeps
    refine ⟨start ▸ laid.start, ?_, ?_, fun other member => ?_⟩
    · have := laid.limit
      show declared.counter + size ≤ maxAddress
      omega
    · rw [lines_push, follows_append, lines]
      exact ⟨declared.counter, by rw [counter]; exact start ▸ laid.follows, rfl, rfl⟩
    · rw [lines_push, lines, List.mem_append, List.mem_singleton] at member
      rcases member with old | rfl
      · exact laid.sized other old
      · exact sized
  | @flush declared flushed isFlush declaration placed complete bounded =>
    obtain ⟨_, start, counter, lines⟩ := declaration.keeps
    subst placed
    obtain ⟨followsPool, sizedPool⟩ := LiteralPool.flushEntries_follows complete
    refine ⟨start ▸ laid.start, bounded, ?_, fun other member => ?_⟩
    · simp only [lines_pool, follows_append, lines]
      exact ⟨declared.counter, ⟨declared.counter, by rw [counter]; exact start ▸ laid.follows,
        rfl, rfl⟩, followsPool⟩
    · simp only [lines_pool, lines, List.mem_append, List.mem_singleton] at member
      rcases member with (old | rfl) | pooled
      · exact laid.sized other old
      · rcases isFlush with command | command <;> simp [PlacedLine.Sized, command]
      · exact sizedPool other pooled

end Placing

namespace Placement

variable {source : String} {placement : Placement}

/-- A finished placement comes from a program whose layout was kept. -/
theorem ofSource_laid (succeeded : ofSource source = .ok placement) :
    ∃ placing : Placing, placing.Laid ∧ placement = placing.finish (Text.stringLines source) :=
  ofSource_induction ⟨by decide, by decide, rfl, fun _ member => by cases member⟩
    (fun fresh laid _ _ placed => (Placing.place_cases placed).laid fresh laid) succeeded

/-- **The lines follow one another without gaps from the start of the program to its end.** -/
theorem follows (succeeded : ofSource source = .ok placement) :
    Follows placement.start placement.lines (placement.start + placement.length) := by
  obtain ⟨placing, laid, rfl⟩ := ofSource_laid succeeded
  have le := laid.follows.le
  show Follows placing.start placing.lines.toList
    (placing.start + (placing.counter - placing.start))
  rw [Nat.add_sub_cancel' le]
  exact laid.follows

/-- **Every line has the size that its command takes.** -/
theorem sized (succeeded : ofSource source = .ok placement) :
    ∀ line ∈ placement.lines, line.Sized := by
  obtain ⟨placing, laid, rfl⟩ := ofSource_laid succeeded
  exact laid.sized

/-- A program lies inside the address space. -/
theorem limit_le (succeeded : ofSource source = .ok placement) :
    placement.start < maxAddress ∧ placement.start + placement.length ≤ maxAddress := by
  obtain ⟨placing, laid, rfl⟩ := ofSource_laid succeeded
  have le := laid.follows.le
  have limit := laid.limit
  refine ⟨laid.start, ?_⟩
  show placing.start + (placing.counter - placing.start) ≤ maxAddress
  omega

end Placement

end Sicxe
