import Mathlib.Data.List.Induction
import Sicxe.Proofs.InPlace
import Sicxe.Proofs.Symbol.Builder
import Sicxe.Proofs.Symbol.Table

/-!
# Tables from declarations

A growing table takes definitions and exports of names in any order. It refuses a second definition
of a name, and what it takes is all that counts in the end: `Declaration.symbolIn` is the symbol that
some declarations give a name.

* `Declaration.inPlace_eq`: a declaration in place that is refused has not changed the table.
* `Declaration.find?_apply`: what one declaration does to the entries.
* `Describes`: a table has the entries that some declarations give. Every declaration that is taken
  keeps this (`Describes.apply`), so it holds after any history (`describes_declared`).
* `mem_accepted_iff`: which declarations of a history are taken.
* `declared_exact`: **every name has its one definition and is exported wherever that was said**, and
  the place of an export in the history does not matter.
-/

namespace Sicxe.SymbolTable

open InPlace (inspect update settle)

/-- A definition or an export of a name. -/
inductive Declaration where
  | define (name : String) (address : UInt32)
  /-- The definition of a constant. -/
  | defineAbsolute (name : String) (value : UInt32)
  /-- A definition that is also an export. -/
  | defineExported (name : String) (address : UInt32)
  | publish (name : String)
  deriving DecidableEq, Repr

namespace Declaration

def name : Declaration → String
  | define name _ | defineAbsolute name _ | defineExported name _ | publish name => name

/-- The address that a definition gives to its name, and whether it is a constant. -/
def meaning? : Declaration → Option (UInt32 × Bool)
  | define _ address | defineExported _ address => some (address, false)
  | defineAbsolute _ value => some (value, true)
  | publish _ => none

def defines (declaration : Declaration) : Bool :=
  declaration.meaning?.isSome

def exports : Declaration → Bool
  | define _ _ | defineAbsolute _ _ => false
  | defineExported _ _ | publish _ => true

/-- The table with a declaration. -/
def apply (builder : Builder) : Declaration → Except SymbolError Builder
  | define name address => builder.define name address
  | defineAbsolute name value => builder.defineAbsolute name value
  | defineExported name address => builder.defineExported name address
  | publish name => .ok (builder.publish name)

variable {builder next : Builder} {declaration : Declaration} {other : String}
variable {error : SymbolError}

/-! ### One declaration -/

/-- **A declaration is refused exactly if it is a second definition.** -/
theorem apply_eq_error_iff :
    declaration.apply builder = .error error ↔
      declaration.defines = true ∧ builder.isDefined declaration.name = true ∧
        error = .duplicate declaration.name := by
  have refused : ∀ name address absolute,
      builder.defineAs name address absolute = .error error ↔
        True ∧ builder.isDefined name = true ∧ error = .duplicate name := by
    intro name address absolute
    unfold Builder.defineAs
    split
    · rename_i defined
      simp only [defined, Except.error.injEq, true_and, eq_comm]
    · rename_i free
      simp only [free, reduceCtorEq, false_and, and_false]
  have always : (true = true) = True := eq_self true
  cases declaration with
  | define name address => exact always ▸ refused name address false
  | defineAbsolute name value => exact always ▸ refused name value true
  | defineExported name address =>
    have mapped : builder.defineExported name address = .error error ↔
        builder.defineAs name address false = .error error := by
      unfold Builder.defineExported Builder.define
      cases builder.defineAs name address false <;> simp [Except.map]
    exact mapped.trans (always ▸ refused name address false)
  | publish name =>
    constructor
    · exact fun impossible => by cases impossible
    · rintro ⟨impossible, _⟩
      cases impossible

/-- What a declaration makes of the entry of its name. -/
def entry (declaration : Declaration) (old : Option Entry) : Entry :=
  match declaration.meaning? with
  | some (address, absolute) =>
    ⟨⟨declaration.name, address,
      declaration.exports || old.any (fun entry => entry.symbol.exported), absolute⟩, true⟩
  | none =>
    (old.map fun entry => { entry with symbol := { entry.symbol with exported := true } }).getD
      ⟨{ name := declaration.name, address := 0, exported := true }, false⟩

/-- **A declaration changes the entry of its name only.** -/
theorem find?_apply (applied : declaration.apply builder = .ok next) (other : String) :
    next.find? other =
      if other = declaration.name then some (declaration.entry (builder.find? declaration.name))
      else builder.find? other := by
  cases declaration with
  | define name address => exact (Builder.find?_defineAs other applied).2
  | defineAbsolute name value => exact (Builder.find?_defineAs other applied).2
  | defineExported name address =>
    obtain ⟨middle, defined, rfl⟩ := map_eq_ok_iff.mp applied
    have found := fun other => (Builder.find?_defineAs other defined).2
    rw [Builder.find?_publish, found, found, if_pos rfl]
    by_cases same : other = name
    · rw [if_pos same]
      exact (if_pos same).symm
    · rw [if_neg same, if_neg same]
      exact (if_neg same).symm
  | publish name =>
    cases applied
    exact Builder.find?_publish builder name

/-- Every name keeps to one entry. -/
theorem nodup_apply (unique : builder.names.Nodup) (applied : declaration.apply builder = .ok next) :
    next.names.Nodup := by
  cases declaration with
  | define name address =>
    rw [Builder.names_defineAs applied]
    exact nodup_addName unique name
  | defineAbsolute name value =>
    rw [Builder.names_defineAs applied]
    exact nodup_addName unique name
  | defineExported name address =>
    obtain ⟨middle, defined, rfl⟩ := map_eq_ok_iff.mp applied
    rw [Builder.names_publish, Builder.names_defineAs defined]
    exact nodup_addName (nodup_addName unique name) name
  | publish name =>
    cases applied
    rw [Builder.names_publish]
    exact nodup_addName unique name

/-! ### Declarations in place -/

/-- Gives the entry of a name its address. The flags of the entry stay as they are. -/
def fill (name : String) (address : UInt32) (builder : Builder) : Builder :=
  builder.upsert name (fun entry => ⟨{ entry.symbol with address }, true⟩) ⟨{ name, address }, true⟩

/-- Marks the entry of a name as a constant. -/
def markAbsolute (name : String) (builder : Builder) : Builder :=
  ⟨builder.entries.map fun entry =>
    if entry.symbol.name == name then
      { entry with symbol := { entry.symbol with absolute := true } }
    else entry⟩

/-- Checks that a name has no definition. -/
def checkFree (name : String) (builder : Builder) : Except SymbolError Unit :=
  if builder.isDefined name then .error (.duplicate name) else .ok ()

def defineInPlace (name : String) (address : UInt32) : InPlace SymbolError Builder Unit := do
  inspect (checkFree name)
  update (fill name address)

/-- A declaration that changes the table as it goes: a definition gives the address first, and the
mark or the export after it. -/
def inPlace : Declaration → InPlace SymbolError Builder Unit
  | define name address => defineInPlace name address
  | defineAbsolute name value => do
    defineInPlace name value
    update (markAbsolute name)
  | defineExported name address => do
    defineInPlace name address
    update fun builder => builder.publish name
  | publish name => update fun builder => builder.publish name

/-- Every name has one entry, and a place that is held for a definition is not marked as a
constant. -/
structure Sound (builder : Builder) : Prop where
  unique : builder.names.Nodup
  held {name : String} {entry : Entry} (found : builder.find? name = some entry)
    (undefined : entry.defined = false) : entry.symbol.absolute = false

/-- An address is enough for a place that is held, because the place has no mark. -/
theorem define_eq (sound : Sound builder) (name : String) (address : UInt32) :
    builder.define name address =
      checkFree name builder >>= fun _ => .ok (fill name address builder) := by
  unfold Builder.define Builder.defineAs checkFree
  split
  · rfl
  · rename_i defined
    have unmarked : ∀ entry ∈ builder.entries, entry.symbol.name = name →
        entry.symbol.absolute = false := by
      rintro entry member rfl
      have found := Builder.find?_of_mem sound.unique member
      rw [Builder.isDefined, found, Option.any_some] at defined
      exact sound.held found (Bool.eq_false_iff.mpr defined)
    refine congrArg Except.ok ?_
    unfold fill Builder.upsert
    split
    · refine congrArg Builder.mk (List.map_congr_left fun entry member => ?_)
      by_cases named : entry.symbol.name = name
      · simp only [named, beq_self_eq_true, if_true, unmarked entry member named]
      · simp only [beq_false_of_ne named, Bool.false_eq_true, if_false]
    · rfl

/-- The mark goes to the entry that was just filled. -/
theorem defineAbsolute_eq (builder : Builder) (name : String) (value : UInt32) :
    builder.defineAbsolute name value =
      checkFree name builder >>= fun _ => .ok (markAbsolute name (fill name value builder)) := by
  unfold Builder.defineAbsolute Builder.defineAs checkFree
  split
  · rfl
  · refine congrArg Except.ok ?_
    unfold fill Builder.upsert markAbsolute
    cases found : builder.find? name with
    | some entry =>
      simp only [Option.isSome_some, if_true, List.map_map]
      refine congrArg Builder.mk (List.map_congr_left fun entry _ => ?_)
      by_cases named : entry.symbol.name = name
      · simp only [Function.comp, named, beq_self_eq_true, if_true]
      · simp only [Function.comp, beq_false_of_ne named, Bool.false_eq_true, if_false]
    | none =>
      have absent : ∀ entry ∈ builder.entries, ¬ (entry.symbol.name == name) = true :=
        List.find?_eq_none.mp found
      have kept : (builder.entries.map fun entry =>
          if entry.symbol.name == name then
            { entry with symbol := { entry.symbol with absolute := true } }
          else entry) = builder.entries :=
        (List.map_congr_left fun entry member => if_neg (absent entry member)).trans
          (List.map_id _)
      simp only [Option.isSome_none, Bool.false_eq_true, if_false, List.map_append, kept,
        List.map_singleton, beq_self_eq_true, if_true]

theorem defineExported_eq (sound : Sound builder) (name : String) (address : UInt32) :
    builder.defineExported name address =
      checkFree name builder >>= fun _ => .ok ((fill name address builder).publish name) := by
  rw [Builder.defineExported, define_eq sound]
  cases checkFree name builder <;> rfl

/-- **A declaration in place that is refused has not changed the table.** -/
theorem inPlace_eq (sound : Sound builder) (declaration : Declaration) :
    declaration.inPlace builder = settle builder (declaration.apply builder) := by
  cases declaration with
  | define name address =>
    rw [apply, define_eq sound]
    exact InPlace.inspect_bind fun _ _ => rfl
  | defineAbsolute name value =>
    rw [apply, defineAbsolute_eq, inPlace, defineInPlace, bind_assoc]
    exact InPlace.inspect_bind fun _ _ => rfl
  | defineExported name address =>
    rw [apply, defineExported_eq sound, inPlace, defineInPlace, bind_assoc]
    exact InPlace.inspect_bind fun _ _ => rfl
  | publish name => rfl

/-! ### What some declarations say -/

/-- The first definition of a name. -/
def definitionIn (declarations : List Declaration) (name : String) : Option Declaration :=
  declarations.find? fun declaration => declaration.defines && declaration.name == name

/-- The symbol that some declarations give a name. It has the address and the mark of the
definition, or the address 0 if the name is only exported. -/
def symbolIn (declarations : List Declaration) (name : String) : Option Symbol :=
  if declarations.any fun declaration => declaration.name == name then
    let (address, absolute) := ((definitionIn declarations name).bind meaning?).getD (0, false)
    some
      { name, address, absolute
        exported := declarations.any fun declaration =>
          declaration.exports && declaration.name == name }
  else none

/-- The entry that some declarations give a name. -/
def entryIn (declarations : List Declaration) (name : String) : Option Entry :=
  (symbolIn declarations name).map fun symbol => ⟨symbol, (definitionIn declarations name).isSome⟩

variable {declarations history moved : List Declaration} {name : String}

theorem definitionIn_concat (declarations : List Declaration) (declaration : Declaration)
    (name : String) :
    definitionIn (declarations ++ [declaration]) name =
      (definitionIn declarations name).or
        (if declaration.defines && declaration.name == name then some declaration else none) := by
  rw [definitionIn, List.find?_append, List.find?_singleton]
  rfl

/-- What is said of a name is said by the declarations of this name. -/
theorem entryIn_concat_of_ne (different : name ≠ declaration.name) :
    entryIn (declarations ++ [declaration]) name = entryIn declarations name := by
  have other : (declaration.name == name) = false := beq_false_of_ne different.symm
  simp only [entryIn, symbolIn, definitionIn_concat, List.any_append, List.any_cons, List.any_nil,
    other, Bool.and_false, Bool.or_false, Bool.false_eq_true, if_false, Option.or_none]

/-- Nothing is said of a name by declarations of other names. -/
theorem said_of_ne
    (unknown : (declarations.any fun declaration => declaration.name == name) = false) :
    definitionIn declarations name = none ∧
      (declarations.any fun declaration => declaration.exports && declaration.name == name) =
        false := by
  rw [List.any_eq_false] at unknown
  refine ⟨List.find?_eq_none.mpr fun declaration member => ?_,
    List.any_eq_false.mpr fun declaration member => ?_⟩
  · exact fun both => unknown declaration member (Bool.and_eq_true_iff.mp both).2
  · exact fun both => unknown declaration member (Bool.and_eq_true_iff.mp both).2

/-- A declaration adds to what was said of its name before. -/
theorem entryIn_concat
    (free : declaration.defines = true → definitionIn declarations declaration.name = none) :
    entryIn (declarations ++ [declaration]) declaration.name =
      some (declaration.entry (entryIn declarations declaration.name)) := by
  unfold entryIn symbolIn entry
  rw [definitionIn_concat]
  simp only [List.any_append, List.any_cons, List.any_nil, beq_self_eq_true, Bool.and_true,
    Bool.or_true, Bool.or_false, if_true, Option.map_some]
  cases meaning : declaration.meaning? with
  | some given =>
    have defined : declaration.defines = true := by rw [defines, meaning, Option.isSome_some]
    rw [free defined]
    cases known : declarations.any fun other => other.name == declaration.name with
    | true => simp [defined, meaning, Bool.or_comm]
    | false => simp [defined, meaning, (said_of_ne known).2]
  | none =>
    have undefined : declaration.defines = false := by rw [defines, meaning, Option.isSome_none]
    have exported : declaration.exports = true := by
      cases declaration with
      | publish name => rfl
      | _ => cases meaning
    cases known : declarations.any fun other => other.name == declaration.name with
    | true => simp [undefined, exported]
    | false => simp [undefined, exported, (said_of_ne known).1]

/-! ### Histories -/

/-- A table has one entry for each name, the one that some declarations give it, and they define no
name twice. -/
structure Describes (declarations : List Declaration) (builder : Builder) : Prop where
  unique : builder.names.Nodup
  find (name : String) : builder.find? name = entryIn declarations name
  single (name : String) :
    (declarations.filter fun declaration =>
      declaration.defines && declaration.name == name).length ≤ 1

namespace Describes

/-- The defined names are those that the declarations define. -/
theorem isDefined (describes : Describes declarations builder) (name : String) :
    builder.isDefined name = (definitionIn declarations name).isSome := by
  rw [Builder.isDefined, describes.find, entryIn, symbolIn]
  cases known : declarations.any fun declaration => declaration.name == name with
  | true => rfl
  | false =>
    rw [(said_of_ne known).1]
    rfl

theorem isDefined_iff (describes : Describes declarations builder) (name : String) :
    builder.isDefined name = true ↔
      ∃ declaration ∈ declarations, declaration.defines = true ∧ declaration.name = name := by
  rw [describes.isDefined, definitionIn, List.find?_isSome]
  simp only [Bool.and_eq_true, beq_iff_eq]

theorem sound (describes : Describes declarations builder) : Sound builder := by
  refine ⟨describes.unique, fun {name entry} found undefined => ?_⟩
  rw [describes.find, entryIn, Option.map_eq_some_iff] at found
  obtain ⟨symbol, isSymbol, rfl⟩ := found
  have none : definitionIn declarations name = none := by simpa using undefined
  rw [symbolIn, none] at isSymbol
  split at isSymbol
  · cases isSymbol
    rfl
  · cases isSymbol

/-- **A declaration that is taken is one more of those that describe the table.** -/
theorem apply (describes : Describes declarations builder)
    (applied : declaration.apply builder = .ok next) :
    Describes (declarations ++ [declaration]) next := by
  have free : declaration.defines = true → definitionIn declarations declaration.name = none := by
    intro defines
    by_contra defined
    have refused : declaration.apply builder = .error (.duplicate declaration.name) := by
      refine apply_eq_error_iff.mpr ⟨defines, ?_, rfl⟩
      rw [describes.isDefined]
      exact Option.isSome_iff_ne_none.mpr defined
    cases applied.symm.trans refused
  refine ⟨nodup_apply describes.unique applied, fun name => ?_, fun name => ?_⟩
  · rw [find?_apply applied]
    by_cases same : name = declaration.name
    · subst same
      rw [if_pos rfl, describes.find, entryIn_concat free]
    · rw [if_neg same, describes.find, entryIn_concat_of_ne same]
  · rw [List.filter_append, List.length_append, List.filter_singleton]
    by_cases same : (declaration.defines && declaration.name == name) = true
    · obtain ⟨defines, named⟩ := Bool.and_eq_true_iff.mp same
      have none := free defines
      rw [eq_of_beq named, definitionIn, List.find?_eq_none] at none
      rw [List.filter_eq_nil_iff.mpr none, same]
      exact Nat.le_refl 1
    · rw [Bool.eq_false_iff.mpr same]
      exact describes.single name

end Describes

/-- The table after some declarations. -/
def declared (history : List Declaration) : Builder :=
  InPlace.after (fun builder declaration => declaration.apply builder) {} history

/-- The declarations that a table takes. -/
def acceptedBy (builder : Builder) : List Declaration → List Declaration
  | [] => []
  | declaration :: rest =>
    match declaration.apply builder with
    | .ok next => declaration :: acceptedBy next rest
    | .error _ => acceptedBy builder rest

/-- The declarations of a history that are not refused. -/
def accepted (history : List Declaration) : List Declaration :=
  acceptedBy {} history

theorem declared_concat (history : List Declaration) (declaration : Declaration) :
    declared (history ++ [declaration]) =
      (settle (declared history) (declaration.apply (declared history))).2 :=
  InPlace.after_concat _ _ _ _

/-- A declaration is taken or refused after the others. -/
theorem acceptedBy_concat (builder : Builder) (history : List Declaration)
    (declaration : Declaration) :
    acceptedBy builder (history ++ [declaration]) =
      acceptedBy builder history ++
        match declaration.apply
          (InPlace.after (fun builder declaration => declaration.apply builder) builder history) with
        | .ok _ => [declaration]
        | .error _ => [] := by
  induction history generalizing builder with
  | nil =>
    show acceptedBy builder [declaration] = _
    unfold acceptedBy InPlace.after
    rw [List.foldl_nil]
    cases declaration.apply builder <;> rfl
  | cons first rest ih =>
    rw [List.cons_append, acceptedBy, acceptedBy, InPlace.after, List.foldl_cons]
    cases first.apply builder with
    | ok next => exact congrArg (first :: ·) (ih next)
    | error error => exact ih builder

theorem accepted_concat_ok (applied : declaration.apply (declared history) = .ok next) :
    accepted (history ++ [declaration]) = accepted history ++ [declaration] := by
  have taken := acceptedBy_concat {} history declaration
  rw [show declaration.apply (InPlace.after _ {} history) = .ok next from applied] at taken
  exact taken

theorem accepted_concat_error (refused : declaration.apply (declared history) = .error error) :
    accepted (history ++ [declaration]) = accepted history := by
  have passed := acceptedBy_concat {} history declaration
  rw [show declaration.apply (InPlace.after _ {} history) = .error error from refused] at passed
  exact passed.trans (List.append_nil _)

/-- **A table is described by what it has taken.** -/
theorem describes_declared (history : List Declaration) :
    Describes (accepted history) (declared history) := by
  induction history using List.reverseRecOn with
  | nil => exact ⟨List.nodup_nil, fun _ => rfl, fun _ => Nat.zero_le 1⟩
  | append_singleton history declaration ih =>
    rw [declared_concat]
    cases outcome : declaration.apply (declared history) with
    | ok next =>
      rw [accepted_concat_ok outcome]
      exact ih.apply outcome
    | error error =>
      rw [accepted_concat_error outcome]
      exact ih

/-- The first definition of a name is the one that is taken. -/
theorem definitionIn_accepted (history : List Declaration) (name : String) :
    definitionIn (accepted history) name = definitionIn history name := by
  induction history using List.reverseRecOn with
  | nil => rfl
  | append_singleton history declaration ih =>
    cases outcome : declaration.apply (declared history) with
    | ok next => rw [accepted_concat_ok outcome, definitionIn_concat, definitionIn_concat, ih]
    | error error =>
      obtain ⟨_, defined, _⟩ := apply_eq_error_iff.mp outcome
      rw [(describes_declared history).isDefined] at defined
      rw [accepted_concat_error outcome, definitionIn_concat, ← ih]
      split
      · rename_i same
        obtain ⟨_, named⟩ := Bool.and_eq_true_iff.mp same
        rw [eq_of_beq named] at defined
        obtain ⟨first, isFirst⟩ := Option.isSome_iff_exists.mp defined
        rw [isFirst, Option.some_or]
      · rw [Option.or_none]

/-- An export is never refused. -/
theorem mem_accepted_of_not_defines (undefined : declaration.defines = false)
    (history : List Declaration) : declaration ∈ accepted history ↔ declaration ∈ history := by
  induction history using List.reverseRecOn with
  | nil => rfl
  | append_singleton history last ih =>
    cases outcome : last.apply (declared history) with
    | ok next => rw [accepted_concat_ok outcome, List.mem_append, List.mem_append, ih]
    | error error =>
      have different : declaration ≠ last := by
        rintro rfl
        rw [(apply_eq_error_iff.mp outcome).1] at undefined
        cases undefined
      rw [accepted_concat_error outcome, ih, List.mem_append, List.mem_singleton, or_iff_left different]

/-- **Which declarations a table takes**: the first definition of each name, and all exports. -/
theorem mem_accepted_iff :
    declaration ∈ accepted history ↔
      if declaration.defines then definitionIn history declaration.name = some declaration
      else declaration ∈ history := by
  split
  · rename_i defines
    rw [← definitionIn_accepted]
    constructor
    · intro member
      have inFilter : declaration ∈ (accepted history).filter fun other =>
          other.defines && other.name == declaration.name :=
        List.mem_filter.mpr ⟨member, by simp [defines]⟩
      have only : (accepted history).filter (fun other =>
          other.defines && other.name == declaration.name) = [declaration] := by
        have single := (describes_declared history).single declaration.name
        obtain ⟨first, isFirst⟩ := List.length_eq_one_iff.mp
          (Nat.le_antisymm single (List.length_pos_of_mem inFilter))
        rw [isFirst] at inFilter ⊢
        rw [List.mem_singleton.mp inFilter]
      rw [definitionIn, ← List.head?_filter, only, List.head?_cons]
    · exact List.mem_of_find?_eq_some
  · rename_i undefined
    exact mem_accepted_of_not_defines (Bool.eq_false_iff.mpr undefined) history

/-- What some declarations say of a name depends on the definition of the name and on the
declarations, whatever their order. -/
theorem symbolIn_congr {other : List Declaration}
    (definition : definitionIn other name = definitionIn declarations name)
    (members : ∀ declaration, declaration ∈ other ↔ declaration ∈ declarations) :
    symbolIn other name = symbolIn declarations name := by
  have any : ∀ test : Declaration → Bool, other.any test = declarations.any test := by
    intro test
    rw [Bool.eq_iff_iff, List.any_eq_true, List.any_eq_true]
    exact exists_congr fun declaration => and_congr_left' (members declaration)
  rw [symbolIn, symbolIn, definition, any, any]

/-- The symbol of a name in the finished table. -/
theorem get?_declared (history : List Declaration) (name : String) :
    (declared history).build.get? name = symbolIn (accepted history) name := by
  rw [Builder.get?_build, (describes_declared history).find, entryIn]
  cases symbolIn (accepted history) name <;> rfl

/-- **The place of an export does not matter.** Two histories with the same definitions in the same
order and the same exports, wherever they stand, give the same symbols to all names. -/
theorem get?_declared_moved (permuted : moved.Perm history)
    (sameDefinitions : moved.filter defines = history.filter defines) :
    (declared moved).build.get? = (declared history).build.get? := by
  have definition : ∀ name, definitionIn moved name = definitionIn history name := by
    intro name
    have found := congrArg (List.find? fun declaration => declaration.name == name) sameDefinitions
    simp only [List.find?_filter, Bool.decide_and, Bool.decide_eq_true] at found
    exact found
  funext name
  rw [get?_declared, get?_declared]
  refine symbolIn_congr ?_ fun declaration => ?_
  · rw [definitionIn_accepted, definitionIn_accepted, definition]
  · rw [mem_accepted_iff, mem_accepted_iff, definition, permuted.mem_iff]

/-- **The order of exports and definitions is irrelevant.** After any history of declarations, one
more is refused exactly if it is a definition of a name of which an earlier definition was taken. The
error is then that of a duplicate, and the table, although it changes as the declaration goes on, is
as it was. At most one definition of each name is taken. In the finished table a name has the address
and the mark of this definition, or the address 0 and no mark if it was only exported, and it is
exported if some declaration that was taken says so; a name that was not declared is not there, and
none is there twice. Moving exports within a history changes the symbol of no name. -/
theorem declared_exact (history : List Declaration) :
    (∀ declaration : Declaration,
      ((∃ error, declaration.apply (declared history) = .error error) ↔
        declaration.defines = true ∧ ∃ earlier ∈ accepted history,
          earlier.defines = true ∧ earlier.name = declaration.name) ∧
      (∀ error, declaration.apply (declared history) = .error error →
        error = .duplicate declaration.name ∧
          declaration.inPlace (declared history) = (.error error, declared history) ∧
          declared (history ++ [declaration]) = declared history) ∧
      ∀ next, declaration.apply (declared history) = .ok next →
        declaration.inPlace (declared history) = (.ok (), next) ∧
          declared (history ++ [declaration]) = next ∧
          accepted (history ++ [declaration]) = accepted history ++ [declaration]) ∧
    (∀ name, ((accepted history).filter fun declaration =>
      declaration.defines && declaration.name == name).length ≤ 1) ∧
    (∀ name, (declared history).build.get? name = symbolIn (accepted history) name) ∧
    (declared history).build.names.Nodup ∧
    ∀ moved : List Declaration, moved.Perm history →
      moved.filter defines = history.filter defines →
      (declared moved).build.get? = (declared history).build.get? := by
  have describes := describes_declared history
  refine ⟨fun declaration => ⟨?_, fun error refused => ?_, fun next applied => ?_⟩,
    describes.single, get?_declared history, ?_, fun moved => get?_declared_moved⟩
  · simp only [apply_eq_error_iff, describes.isDefined_iff, exists_and_left, exists_eq, and_true]
  · obtain ⟨_, _, isDuplicate⟩ := apply_eq_error_iff.mp refused
    rw [inPlace_eq describes.sound, declared_concat, refused]
    exact ⟨isDuplicate, rfl, rfl⟩
  · rw [inPlace_eq describes.sound, declared_concat, applied]
    exact ⟨rfl, rfl, accepted_concat_ok applied⟩
  · rw [SymbolTable.names, Builder.names_build]
    exact describes.unique

/-- A name that is exported first, defined later and defined again; and the same with its export at
the end. -/
theorem declared_exact_exportedFirst :
    let history : List Declaration :=
      [.publish "A", .defineAbsolute "K" 7, .define "A" 5, .defineExported "A" 9, .publish "B"]
    let moved : List Declaration :=
      [.defineAbsolute "K" 7, .publish "B", .define "A" 5, .defineExported "A" 9, .publish "A"]
    (declared history).build.get? "A" = some ⟨"A", 5, true, false⟩ ∧
      (declared history).build.get? "B" = some ⟨"B", 0, true, false⟩ ∧
      (∃ error, (define "K" 3).apply (declared history) = .error error) ∧
      (declared moved).build.get? = (declared history).build.get? := by
  intro history moved
  obtain ⟨refused, _, symbol, _, exportsMove⟩ := declared_exact history
  refine ⟨(symbol "A").trans (by decide +kernel), (symbol "B").trans (by decide +kernel),
    (refused (define "K" 3)).1.mpr ⟨rfl, .defineAbsolute "K" 7, by decide +kernel, rfl, rfl⟩,
    exportsMove moved (by decide +kernel) (by decide +kernel)⟩

end Declaration

end Sicxe.SymbolTable
