import Sicxe.Proofs.Link.Relocatable

/-!
# Linking in groups

The relocatable program of some modules is a module itself. Wherever it is linked in turn, it
exports, imports and contains what its modules would at the same place.

* `Object.StandsFor`: a module makes up the same stretch of a program as a group of modules, and
  `Object.standsFor_of_link` for the program of the group.
* `Object.link_relocatable_group`: linking with a linked group in between gives the program of all
  modules linked at once.
-/

namespace Sicxe

/-! ### Names added in stages -/

theorem filter_addName (keep : String → Bool) (names : List String) (name : String) :
    (addName names name).filter keep =
      if keep name then addName (names.filter keep) name else names.filter keep := by
  unfold addName
  by_cases known : name ∈ names
  · by_cases kept : keep name = true <;> simp [known, kept]
  · by_cases kept : keep name = true <;> simp [known, kept]

/-- Names can be left out before or after they are collected. -/
theorem filter_foldl_addName (keep : String → Bool) (added names : List String) :
    (added.foldl addName names).filter keep =
      (added.filter keep).foldl addName (names.filter keep) := by
  induction added generalizing names with
  | nil => rfl
  | cons name rest ih =>
    rw [List.foldl_cons, ih, filter_addName]
    by_cases kept : keep name = true
    · rw [if_pos kept, List.filter_cons_of_pos kept, List.foldl_cons]
    · rw [if_neg kept, List.filter_cons_of_neg kept]

/-- **Collecting names twice is collecting them once.** -/
theorem foldl_addName_collected (added names : List String) :
    (added.foldl addName []).foldl addName names = added.foldl addName names := by
  induction added using List.reverseRecOn with
  | nil => rfl
  | append_singleton rest name ih =>
    simp only [List.foldl_append, List.foldl_cons, List.foldl_nil]
    rw [← ih]
    by_cases known : name ∈ rest.foldl addName []
    · have collected : name ∈ (rest.foldl addName []).foldl addName names :=
        Object.mem_foldl_addName.mpr (Or.inr known)
      simp [addName, known, collected]
    · simp [addName, known]

namespace Object

variable {object inner linked first : Object} {modules group before after rest : List Object}

/-! ### Modules one behind the other -/

theorem totalLength_append (before after : List Object) :
    totalLength (before ++ after) = totalLength before + totalLength after := by
  induction before with
  | nil => exact (Nat.zero_add _).symm
  | cons object rest ih => rw [List.cons_append, totalLength_cons, totalLength_cons, ih, Nat.add_assoc]

theorem laidOut_append (position : Nat) (before after : List Object) :
    laidOut position (before ++ after) =
      laidOut position before ++ laidOut (position + totalLength before) after := by
  induction before generalizing position with
  | nil => rfl
  | cons object rest ih =>
    rw [List.cons_append, laidOut, laidOut, ih, totalLength_cons, Nat.add_assoc, List.cons_append]

theorem recordsFrom_append (position : Nat) (before after : List Object) :
    recordsFrom position (before ++ after) =
      recordsFrom position before ++ recordsFrom (position + totalLength before) after := by
  induction before generalizing position with
  | nil => rfl
  | cons object rest ih =>
    rw [List.cons_append, recordsFrom, recordsFrom, ih, totalLength_cons, Nat.add_assoc,
      List.append_assoc]

/-- Records of modules that lie further on are shifted further. -/
theorem map_shifted_recordsFrom (modules : List Object) (position distance : Nat) :
    (recordsFrom position modules).map (fun record => record.shifted distance) =
      recordsFrom (distance + position) modules := by
  induction modules generalizing position with
  | nil => rfl
  | cons object rest ih =>
    rw [recordsFrom, recordsFrom, List.map_append, ih, List.map_map, Nat.add_assoc]
    congr 1
    refine List.map_congr_left fun record _ => ?_
    simp only [Function.comp, Relocation.shifted, Nat.add_assoc, Nat.add_comm position]

/-- **A group among modules that have room has room by itself.** -/
theorem Addressable.of_middle (addressable : Addressable (before ++ group ++ after)) :
    Addressable group := by
  constructor
  · have whole := addressable.length
    simp only [totalLength_append] at whole
    omega
  · intro record member
    have moved : record.shifted (totalLength before) ∈ recordsFrom (totalLength before) group := by
      have shifted := map_shifted_recordsFrom group 0 (totalLength before)
      rw [Nat.add_zero] at shifted
      rw [← shifted]
      exact List.mem_map_of_mem member
    have inWhole : record.shifted (totalLength before) ∈
        recordsFrom 0 (before ++ group ++ after) := by
      rw [recordsFrom_append, recordsFrom_append, Nat.zero_add]
      exact List.mem_append_left _ (List.mem_append_right _ moved)
    exact Nat.lt_of_le_of_lt (Nat.le_add_right _ _) (addressable.records _ inWhole)

/-! ### Exports and open imports -/

/-- The exports of modules that lie one after another from `position` on. -/
def exportsFrom (position : Nat) (modules : List Object) : List Symbol :=
  (laidOut position modules).flatMap fun moved => moved.symbols.exported

theorem exportsFrom_append (position : Nat) (before after : List Object) :
    exportsFrom position (before ++ after) =
      exportsFrom position before ++ exportsFrom (position + totalLength before) after := by
  rw [exportsFrom, laidOut_append, List.flatMap_append]
  rfl

/-- The exports of modules laid end to end, moved to a place further on. -/
theorem map_rebased_exports (modules : List Object) (distance : Nat) :
    (((endToEnd modules).flatMap PlacedObject.exports).map fun symbol =>
      symbol.rebased 0 (UInt32.ofNat distance)) = exportsFrom distance modules :=
  exports_laidOut modules distance 0 0

theorem flatMap_exports_eq_exportsFrom (modules : List Object) :
    (endToEnd modules).flatMap PlacedObject.exports = exportsFrom 0 modules := by
  have stays : (fun symbol : Symbol => symbol.rebased 0 (UInt32.ofNat 0)) = id := by
    funext symbol
    exact rebased_self symbol 0
  rw [← map_rebased_exports, stays, List.map_id]

/-- The names that modules export do not depend on where the modules lie. -/
theorem names_exportsFrom (position : Nat) (modules : List Object) :
    (exportsFrom position modules).map Symbol.name =
      (exportsFrom 0 modules).map Symbol.name := by
  rw [← map_rebased_exports, flatMap_exports_eq_exportsFrom, List.map_map]
  refine List.map_congr_left fun symbol _ => ?_
  exact SymbolTable.name_rebased symbol 0 _

/-- The imports of modules that are not in a table, as often as they occur. -/
def missingImports (table : SymbolTable) (modules : List Object) : List String :=
  modules.flatMap fun object => object.imports.filter fun name => !table.contains name

theorem missingImports_append (table : SymbolTable) (before after : List Object) :
    missingImports table (before ++ after) =
      missingImports table before ++ missingImports table after :=
  List.flatMap_append

/-! ### The program of some modules -/

/-- The relocatable program of modules that takes its name and entry from `first`. -/
def relocatableProgram (first : Object) (modules : List Object) : Object where
  name := first.name
  start := 0
  entry := first.entry - first.start
  code := joinedCode modules
  symbols := ⟨exportsFrom 0 modules⟩
  imports := (missingImports ⟨exportsFrom 0 modules⟩ modules).foldl addName []
  relocations := recordsFrom 0 modules
  fullyRelocated := false

/-- **Modules are linked end to end** when they have room there and export no name twice. -/
theorem link_relocatable_iff :
    link (first :: rest) .relocatable = .ok linked ↔
      Addressable (first :: rest) ∧ ((exportsFrom 0 (first :: rest)).map Symbol.name).Nodup ∧
        linked = relocatableProgram first (first :: rest) := by
  show linkRelocatable first rest = .ok linked ↔ _
  rw [linkRelocatable_eq_ok_iff, flatMap_exports_eq_exportsFrom]
  rfl

/-- A module that makes up the same stretch of any program as a group of modules. -/
structure StandsFor (object : Object) (group : List Object) : Prop where
  length : object.length = totalLength group
  code : object.code.toList = group.flatMap fun member => member.code.toList
  exports : ∀ position, exportsFrom position [object] = exportsFrom position group
  records : ∀ position, recordsFrom position [object] = recordsFrom position group
  imports : ∀ (table : SymbolTable) (names : List String),
    (∀ symbol ∈ exportsFrom 0 group, table.contains symbol.name = true) →
      (missingImports table [object]).foldl addName names =
        (missingImports table group).foldl addName names

/-- The program of a group imports what the group does, once the group's own exports are known. -/
theorem foldl_openImports {globals table : SymbolTable}
    (known : ∀ name, globals.contains name = true → table.contains name = true)
    (names : List String) :
    (((missingImports globals group).foldl addName []).filter fun name =>
      !table.contains name).foldl addName names =
        (missingImports table group).foldl addName names := by
  have twice : (missingImports globals group).filter (fun name => !table.contains name) =
      missingImports table group := by
    rw [missingImports, List.filter_flatMap, missingImports]
    refine List.flatMap_congr fun object _ => ?_
    rw [List.filter_filter]
    refine List.filter_congr fun name _ => ?_
    cases inTable : table.contains name with
    | true => rfl
    | false =>
      cases inGlobals : globals.contains name with
      | true =>
        rw [known name inGlobals] at inTable
        cases inTable
      | false => rfl
  rw [filter_foldl_addName, twice, List.filter_nil, foldl_addName_collected]

/-- **The program of a group stands for the group.** -/
theorem standsFor_of_link (succeeded : link group .relocatable = .ok inner) :
    inner.StandsFor group := by
  cases group with
  | nil => cases succeeded
  | cons first rest =>
    obtain ⟨_, _, rfl⟩ := link_relocatable_iff.mp succeeded
    have exported : (⟨exportsFrom 0 (first :: rest)⟩ : SymbolTable).exported =
        (endToEnd (first :: rest)).flatMap PlacedObject.exports := by
      rw [← flatMap_exports_eq_exportsFrom, exported_flatMap_exports]
    refine ⟨size_joinedCode _, toList_joinedCode _, fun position => ?_, fun position => ?_,
      fun table names contained => ?_⟩
    · rw [← map_rebased_exports (first :: rest), ← exported, ← exported_rebased]
      exact List.append_nil _
    · have shifted := map_shifted_recordsFrom (first :: rest) 0 position
      rw [Nat.add_zero] at shifted
      rw [← shifted]
      exact List.append_nil _
    · rw [missingImports, List.flatMap_singleton]
      refine foldl_openImports (fun name inGroup => ?_) names
      obtain ⟨symbol, member, rfl⟩ := List.mem_map.mp (SymbolTable.contains_iff.mp inGroup)
      exact contained symbol member

namespace StandsFor

/-- **In a longer list a module stands for its group too.** -/
theorem inContext (stands : inner.StandsFor group) (before after : List Object) :
    joinedCode (before ++ inner :: after) = joinedCode (before ++ group ++ after) ∧
      exportsFrom 0 (before ++ inner :: after) = exportsFrom 0 (before ++ group ++ after) ∧
      recordsFrom 0 (before ++ inner :: after) = recordsFrom 0 (before ++ group ++ after) := by
  have length : totalLength [inner] = totalLength group := stands.length
  have split : before ++ inner :: after = before ++ [inner] ++ after := by simp
  rw [split]
  refine ⟨?_, ?_, ?_⟩
  · apply Array.toList_inj.mp
    simp only [toList_joinedCode, List.flatMap_append, List.flatMap_singleton, stands.code]
  · simp only [exportsFrom_append, totalLength_append, stands.exports, length]
  · simp only [recordsFrom_append, totalLength_append, stands.records, length]

/-- A longer list has room exactly if it has room with the group. -/
theorem addressable_inContext (stands : inner.StandsFor group) (before after : List Object) :
    Addressable (before ++ inner :: after) ↔ Addressable (before ++ group ++ after) := by
  have length : totalLength (before ++ inner :: after) =
      totalLength (before ++ group ++ after) := by
    simp only [totalLength_append, totalLength_cons, stands.length, Nat.add_assoc]
  have records := (stands.inContext before after).2.2
  rw [addressable_iff, addressable_iff, length, records]

/-- The open imports of a longer list are the same. -/
theorem imports_inContext (stands : inner.StandsFor group) (before after : List Object) :
    (missingImports ⟨exportsFrom 0 (before ++ group ++ after)⟩
      (before ++ inner :: after)).foldl addName [] =
    (missingImports ⟨exportsFrom 0 (before ++ group ++ after)⟩
      (before ++ group ++ after)).foldl addName [] := by
  have contained : ∀ symbol ∈ exportsFrom 0 group,
      (⟨exportsFrom 0 (before ++ group ++ after)⟩ : SymbolTable).contains symbol.name = true := by
    intro symbol member
    have named : symbol.name ∈ (exportsFrom (totalLength before) group).map Symbol.name := by
      rw [names_exportsFrom]
      exact List.mem_map_of_mem member
    rw [SymbolTable.contains_iff, SymbolTable.names, exportsFrom_append, exportsFrom_append,
      Nat.zero_add, List.map_append, List.map_append]
    exact List.mem_append_left _ (List.mem_append_right _ named)
  have split : before ++ inner :: after = before ++ [inner] ++ after := by simp
  rw [split]
  simp only [missingImports_append, List.foldl_append, stands.imports _ _ contained]

/-- The program of a longer list is the same, whichever module gives it its name and entry. -/
theorem relocatableProgram_eq (stands : inner.StandsFor group) (before after : List Object)
    (first : Object) :
    relocatableProgram first (before ++ inner :: after) =
      relocatableProgram first (before ++ group ++ after) := by
  obtain ⟨code, exports, records⟩ := stands.inContext before after
  have imports := stands.imports_inContext before after
  simp only [relocatableProgram, code, exports, records, imports]

end StandsFor

/-- Linking with the program of a group in between. -/
theorem link_inner_iff (succeeded : link group .relocatable = .ok inner) :
    link (before ++ inner :: after) .relocatable = .ok linked ↔
      link (before ++ group ++ after) .relocatable = .ok linked := by
  have stands := standsFor_of_link succeeded
  have program := stands.relocatableProgram_eq before after
  have exports := (stands.inContext before after).2.1
  have addressable := stands.addressable_inContext before after
  cases before with
  | cons head others =>
    simp only [List.cons_append] at program exports addressable ⊢
    rw [link_relocatable_iff, link_relocatable_iff, addressable, exports, program]
  | nil =>
    -- The group comes first, and its program has the name and entry of its first module.
    cases group with
    | nil => cases succeeded
    | cons head others =>
      obtain ⟨_, _, rfl⟩ := link_relocatable_iff.mp succeeded
      simp only [List.nil_append, List.cons_append] at program exports addressable ⊢
      rw [link_relocatable_iff, link_relocatable_iff, addressable, exports, program]
      simp only [relocatableProgram, UInt32.sub_zero]

/-- A group that cannot be linked cannot be linked among others. -/
theorem link_group_of_link (nonempty : group ≠ [])
    (succeeded : link (before ++ group ++ after) .relocatable = .ok linked) :
    ∃ inner, link group .relocatable = .ok inner := by
  obtain ⟨head, others, rfl⟩ := List.exists_cons_of_ne_nil nonempty
  obtain ⟨first, rest, whole⟩ : ∃ first rest, before ++ (head :: others) ++ after =
      first :: rest := List.exists_cons_of_ne_nil (by simp)
  rw [whole] at succeeded
  obtain ⟨addressable, unique, _⟩ := link_relocatable_iff.mp succeeded
  rw [← whole] at addressable
  rw [← whole, exportsFrom_append, exportsFrom_append, List.map_append, List.map_append,
    List.append_assoc] at unique
  have inner := (List.nodup_append.mp (List.nodup_append.mp unique).2.1).1
  rw [names_exportsFrom] at inner
  exact ⟨_, link_relocatable_iff.mpr ⟨addressable.of_middle, inner, rfl⟩⟩

/-- **Linking in groups is linking at once.** With the program of some modules in their place the
other modules link exactly when all of them do, and to the same program; modules that cannot be
linked by themselves cannot be linked among others. -/
theorem link_relocatable_group (nonempty : group ≠ []) :
    (∀ inner, link group .relocatable = .ok inner → ∀ linked,
      link (before ++ [inner] ++ after) .relocatable = .ok linked ↔
        link (before ++ group ++ after) .relocatable = .ok linked) ∧
    ((∃ error, link group .relocatable = .error error) →
      ∃ error, link (before ++ group ++ after) .relocatable = .error error) := by
  constructor
  · intro inner succeeded linked
    rw [List.append_assoc]
    exact link_inner_iff succeeded
  · rintro ⟨error, failed⟩
    cases whole : link (before ++ group ++ after) .relocatable with
    | error error => exact ⟨error, rfl⟩
    | ok linked =>
      obtain ⟨inner, succeeded⟩ := link_group_of_link nonempty whole
      rw [failed] at succeeded
      cases succeeded

/-- A module that exports a constant and refers to a module of the group and to one outside. -/
def importingModule : Object where
  name := "C"
  start := 32
  entry := 35
  code := #[0, 0, 0, 0, 0, 0]
  symbols := ⟨[⟨"C", 32, true, false⟩, ⟨"K", 5, true, true⟩]⟩
  imports := ["B", "D"]
  relocations := [.word 0 "B", .word 3 "D"]

/-- The linked group lies between a module that refers into it and one that imports from it. -/
theorem link_relocatable_group_calling_called :
    ∃ inner linked, link [callingModule, calledModule] .relocatable = .ok inner ∧
      link ([importingModule] ++ [inner] ++ [{ imports := ["A"] }]) .relocatable = .ok linked ∧
      link ([importingModule] ++ [callingModule, calledModule] ++ [{ imports := ["A"] }])
        .relocatable = .ok linked ∧
      linked.imports = ["D"] ∧ linked.entry = 3 := by
  obtain ⟨same, _⟩ := @link_relocatable_group [callingModule, calledModule] [importingModule]
    [{ imports := ["A"] }] (List.cons_ne_nil _ _)
  obtain ⟨inner, succeeded⟩ : ∃ inner, link [callingModule, calledModule] .relocatable = .ok inner :=
    ⟨_, rfl⟩
  obtain ⟨linked, whole⟩ : ∃ linked, link ([importingModule] ++ [callingModule, calledModule] ++
      [{ imports := ["A"] }]) .relocatable = .ok linked := ⟨_, rfl⟩
  refine ⟨inner, linked, succeeded, (same inner succeeded linked).mpr whole, whole, ?_, ?_⟩
  · cases whole
    decide +kernel
  · cases whole
    decide +kernel

end Object

end Sicxe
