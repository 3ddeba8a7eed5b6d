import Mathlib.Tactic.Tauto
import TexTree.Proofs.Engine.Quiet
import TexTree.Proofs.Scope.Locality

/-!
# One meaning for each name

A frame keeps commands and aliases of characters apart, and every assignment removes a
name from one of them when it enters it into the other.  So a name is either a command or
an alias, with one exception: looking up a name that has no command binds it to a
placeholder in the outermost frame, without regard to an alias that the name may have
there.  From then on the name has two meanings, until it is given one in the outermost
frame again (`meanings_clash_iff`).

All operations are of three kinds: they assign a meaning, bind a placeholder, or open and
close frames (`ScopeChange.apply_cases`).
-/

namespace TexTree

namespace Frame

variable {name : String} {frame other : Frame}

/-- The frame knows a name, as a command or as an alias. -/
def knows (name : String) (frame : Frame) : Bool :=
  frame.commands.contains name || frame.aliases.contains name

/-- The frame knows a name both as a command and as an alias. -/
def Doubles (name : String) (frame : Frame) : Prop :=
  frame.commands.contains name = true ∧ frame.aliases.contains name = true

theorem AgreeOn.doubles_iff (agree : AgreeOn name frame other) :
    frame.Doubles name ↔ other.Doubles name := by
  rw [Doubles, Doubles, Table.contains, Table.contains, agree.1, agree.2]
  rfl

theorem not_doubles_give (frame : Frame) (name : String) (meaning : Meaning) :
    ¬(frame.give name meaning).Doubles name := by
  cases meaning <;>
    simp [Doubles, give, bind, bindAlias, Table.contains, Table.get?_erase]

theorem not_doubles_forget (frame : Frame) (name : String) : ¬(frame.forget name).Doubles name := by
  simp [Doubles, forget, Table.contains, Table.get?_erase]

theorem not_doubles_of_aliases (isEmpty : frame.aliases = .empty) (name : String) :
    ¬frame.Doubles name := by
  simp [Doubles, isEmpty, Table.contains]

/-- An assignment to a name leaves a frame with what it knows of the others, and makes it
know one meaning of the name at most. -/
theorem doubles_give_iff {target : String} {meaning : Meaning} :
    (frame.give target meaning).Doubles name ↔ target ≠ name ∧ frame.Doubles name := by
  by_cases same : target = name
  · subst same
    simp [not_doubles_give]
  · simp [(agreeOn_give same frame meaning).doubles_iff, same]

theorem doubles_of_forget {target : String} (doubles : (frame.forget target).Doubles name) :
    frame.Doubles name := by
  have different : target ≠ name := by
    rintro rfl
    exact not_doubles_forget frame target doubles
  exact (agreeOn_forget different frame).doubles_iff.mp doubles

end Frame

namespace Scopes

variable {scopes : Scopes} {name : String}

/-- The innermost frame that knows a name, which decides what it means. -/
def deciding? (scopes : Scopes) (name : String) : Option Frame :=
  scopes.frames.find? (·.knows name)

theorem command?_eq_deciding (scopes : Scopes) (name : String) :
    scopes.command? name = (scopes.deciding? name).bind (·.commands.get? name) := by
  unfold command? deciding?
  induction scopes.frames with
  | nil => rfl
  | cons frame rest ih =>
      rw [commandIn, ih, List.find?_cons]
      cases isCommand : frame.commands.get? name <;> cases isAlias : frame.aliases.get? name <;>
        simp [Frame.knows, Table.contains, isCommand, isAlias]

theorem alias?_eq_deciding (scopes : Scopes) (name : String) :
    scopes.alias? name = (scopes.deciding? name).bind (·.aliases.get? name) := by
  unfold alias? deciding?
  induction scopes.frames with
  | nil => rfl
  | cons frame rest ih =>
      rw [aliasIn, ih, List.find?_cons]
      cases isCommand : frame.commands.get? name <;> cases isAlias : frame.aliases.get? name <;>
        simp [Frame.knows, Table.contains, isCommand, isAlias]

/-- A name has a command and an alias if the frame that decides about it doubles it. -/
theorem clash_iff_deciding (scopes : Scopes) (name : String) :
    (scopes.command? name).isSome = true ∧ (scopes.alias? name).isSome = true ↔
      ∃ frame ∈ scopes.deciding? name, frame.Doubles name := by
  rw [command?_eq_deciding, alias?_eq_deciding]
  cases scopes.deciding? name <;> simp [Frame.Doubles, Table.contains]

/-- No frame but the outermost one doubles a name. -/
def SingleInside (scopes : Scopes) : Prop :=
  ∀ name, ∀ frame ∈ scopes.inner, ¬frame.Doubles name

/-- A name that is unknown inside is decided about by the outermost frame. -/
theorem deciding?_of_unknown (unknown : ∀ frame ∈ scopes.inner, frame.knows name = false)
    (doubles : scopes.base.Doubles name) : scopes.deciding? name = some scopes.base := by
  have inside : scopes.inner.find? (·.knows name) = none :=
    List.find?_eq_none.mpr fun frame member => by simp [unknown frame member]
  have known : scopes.base.knows name = true := by simp [Frame.knows, doubles.1]
  simp [deciding?, frames, inside, known]

theorem SingleInside.clash_iff (single : scopes.SingleInside) (name : String) :
    (scopes.command? name).isSome = true ∧ (scopes.alias? name).isSome = true ↔
      (∀ frame ∈ scopes.inner, frame.knows name = false) ∧ scopes.base.Doubles name := by
  rw [clash_iff_deciding]
  constructor
  · rintro ⟨frame, isDeciding, doubles⟩
    rw [deciding?, frames, List.find?_append] at isDeciding
    cases inside : scopes.inner.find? (·.knows name) with
    | some found =>
        rw [inside] at isDeciding
        cases isDeciding
        exact absurd doubles (single name frame (List.mem_of_find?_eq_some inside))
    | none =>
        rw [inside, Option.none_or] at isDeciding
        obtain rfl : frame = scopes.base := by
          simpa using List.mem_of_find?_eq_some isDeciding
        refine ⟨fun other member => ?_, doubles⟩
        simpa using List.find?_eq_none.mp inside other member
  · rintro ⟨unknown, doubles⟩
    exact ⟨scopes.base, deciding?_of_unknown unknown doubles, doubles⟩

theorem closeFrames_suffix (ending : FrameOwner) (parent : Option NodeId) (frames : List Frame) :
    closeFrames ending parent frames <:+ frames := by
  induction frames with
  | nil => exact List.suffix_rfl
  | cons frame rest ih =>
      rw [closeFrames]
      split
      · exact List.suffix_rfl
      · split
        · exact List.suffix_cons frame rest
        · exact ih.trans (List.suffix_cons frame rest)

theorem SingleInside.of_inner {before after : Scopes} (single : before.SingleInside)
    (inner : ∀ frame ∈ after.inner, frame ∈ before.inner ∨ frame.aliases = .empty) :
    after.SingleInside := by
  intro name frame member
  rcases inner frame member with old | isEmpty
  · exact single name frame old
  · exact Frame.not_doubles_of_aliases isEmpty name

theorem SingleInside.give (single : scopes.SingleInside) (target : String) (meaning : Meaning)
    (isGlobal : Bool) : (scopes.give target meaning isGlobal).SingleInside := by
  intro name frame member doubles
  cases isGlobal with
  | true =>
      rw [give_global] at member
      obtain ⟨old, memberOld, rfl⟩ := List.mem_map.mp member
      exact single name old memberOld (Frame.doubles_of_forget doubles)
  | false =>
      rw [give_local, modifyTop] at member
      split at member
      · exact single name frame member doubles
      · next top rest inner =>
          rw [SingleInside, inner] at single
          rcases List.mem_cons.mp member with rfl | below
          · exact single name top List.mem_cons_self (Frame.doubles_give_iff.mp doubles).2
          · exact single name frame (List.mem_cons_of_mem top below) doubles

/-- The outermost frame changes by an assignment that is global, or that is made there. -/
theorem base_give (scopes : Scopes) (target : String) (meaning : Meaning) (isGlobal : Bool) :
    (scopes.give target meaning isGlobal).base =
      if isGlobal = true ∨ scopes.inner = [] then scopes.base.give target meaning
      else scopes.base := by
  cases isGlobal with
  | true => simp [give_global]
  | false =>
      rw [give_local, modifyTop]
      split
      · next isEmpty => simp [isEmpty]
      · next inner => simp [inner]

theorem doubles_bindPlaceholder_iff (scopes : Scopes) (target name : String) :
    (scopes.bindPlaceholder target).base.Doubles name ↔
      if target = name then scopes.base.aliases.contains name = true
      else scopes.base.Doubles name := by
  by_cases same : target = name <;>
    simp [bindPlaceholder, Frame.Doubles, Table.contains, Table.get?_insert, same]

end Scopes

namespace Engine

/-- The operations that meanings and frames are changed by. -/
inductive ScopeChange where
  | push (owner : Option FrameOwner) (locals : List (String × Command))
  | pop
  | popOwner (ending : FrameOwner) (parent : Option NodeId)
  | unwind
  | setCommand (name : String) (command : Command) (isGlobal : Bool)
  | letToken (name : String) (source : Token) (isGlobal : Bool)
  | lookup (name : String)
  | createCounter (name : String) (resetBy : Option String) (value : Int)
  | createRegister (name : String) (value : Quantity)

namespace ScopeChange

/-- Perform an operation. -/
def apply (engine : Engine) : ScopeChange → Engine
  | .push owner locals => { engine with scopes := engine.scopes.push owner locals }
  | .pop => { engine with scopes := engine.scopes.pop }
  | .popOwner ending parent => { engine with scopes := engine.scopes.popOwner ending parent }
  | .unwind => { engine with scopes := engine.scopes.unwind }
  | .setCommand name command isGlobal =>
      { engine with scopes := engine.scopes.setCommand name command isGlobal }
  | .letToken name source isGlobal =>
      { engine with scopes := engine.scopes.letToken name source isGlobal }
  | .lookup name => left (Engine.lookup name engine)
  | .createCounter name resetBy value => engine.createCounter name resetBy value
  | .createRegister name value => engine.createRegister name value

/-- The name that an operation gives a meaning to, the meaning, and whether that is done
globally. -/
def assignment? (engine : Engine) : ScopeChange → Option (String × Meaning × Bool)
  | .setCommand name command isGlobal => some (name, .command command, isGlobal)
  | .letToken name source isGlobal => some (name, engine.scopes.meaningNow source, isGlobal)
  | .createCounter name _ _ =>
      if engine.counters.contains name then none
      else some ("the" ++ name, .command (.printedCounter name (.ofCounter name)), true)
  | .createRegister name _ => some (name, .command (.register name), true)
  | _ => none

/-- An operation gives a name a meaning in the outermost frame. -/
def Settles (name : String) (engine : Engine) (operation : ScopeChange) : Prop :=
  ∃ meaning isGlobal, operation.assignment? engine = some (name, meaning, isGlobal) ∧
    (isGlobal = true ∨ engine.scopes.inner = [])

end ScopeChange

theorem scopes_lookup (engine : Engine) (name : String) :
    (left (lookup name engine)).scopes =
      if engine.scopes.command? name = none then engine.scopes.bindPlaceholder name
      else engine.scopes := by
  simp only [lookup, Bind.bind, EStateM.bind, get_run]
  cases engine.scopes.command? name with
  | some command => rfl
  | none =>
      dsimp only
      split <;> rfl

/-- What an operation can do: assign a meaning, bind a placeholder to a name without a
command, or open and close frames. -/
theorem ScopeChange.apply_cases (engine : Engine) (operation : ScopeChange) :
    (∃ name meaning isGlobal, operation.assignment? engine = some (name, meaning, isGlobal) ∧
      (operation.apply engine).scopes = engine.scopes.give name meaning isGlobal) ∨
    (∃ name, operation = .lookup name ∧ engine.scopes.command? name = none ∧
      (operation.apply engine).scopes = engine.scopes.bindPlaceholder name) ∨
    (operation.assignment? engine = none ∧
      (∀ name, operation = .lookup name → engine.scopes.command? name ≠ none) ∧
      (operation.apply engine).scopes.base = engine.scopes.base ∧
      ∀ frame ∈ (operation.apply engine).scopes.inner,
        frame ∈ engine.scopes.inner ∨ frame.aliases = .empty) := by
  cases operation with
  | push owner locals =>
      refine .inr (.inr ⟨rfl, by simp, ?_, ?_⟩)
      · simp only [apply, Scopes.push]
        split <;> rfl
      · intro frame member
        simp only [apply, Scopes.push, List.mem_cons] at member
        rcases member with rfl | below
        · exact .inr rfl
        · split at below
          · cases below
          · exact .inl below
  | pop =>
      refine .inr (.inr ⟨rfl, by simp, rfl, fun frame member => .inl ?_⟩)
      exact (List.dropWhile_sublist _).subset (List.mem_of_mem_drop member)
  | popOwner ending parent =>
      refine .inr (.inr ⟨rfl, by simp, rfl, fun frame member => .inl ?_⟩)
      exact (Scopes.closeFrames_suffix ending parent _).subset member
  | unwind => exact .inr (.inr ⟨rfl, by simp, rfl, List.forall_mem_nil _⟩)
  | setCommand name command isGlobal => exact .inl ⟨name, _, isGlobal, rfl, rfl⟩
  | letToken name source isGlobal =>
      exact .inl ⟨name, _, isGlobal, rfl, engine.scopes.letToken_eq_give name source isGlobal⟩
  | lookup name =>
      by_cases unbound : engine.scopes.command? name = none
      · exact .inr (.inl ⟨name, rfl, unbound, by simp [apply, scopes_lookup, unbound]⟩)
      · have same : (apply engine (.lookup name)).scopes = engine.scopes := by
          simp [apply, scopes_lookup, unbound]
        refine .inr (.inr ⟨rfl, by simpa using unbound, by rw [same], fun frame member => .inl ?_⟩)
        rwa [same] at member
  | createCounter name resetBy value =>
      simp only [apply, assignment?, Engine.createCounter, Counters.create?]
      cases engine.counters.contains name with
      | true => exact .inr (.inr ⟨rfl, by simp, rfl, fun _ member => .inl member⟩)
      | false => exact .inl ⟨_, _, true, rfl, rfl⟩
  | createRegister name value => exact .inl ⟨name, _, true, rfl, rfl⟩

/-! ## The outermost frame -/

/-- An operation that assigns a meaning settles the name if the assignment reaches the
outermost frame. -/
theorem ScopeChange.settles_iff {engine : Engine} {operation : ScopeChange} {target : String}
    {meaning : Meaning} {isGlobal : Bool}
    (assigned : operation.assignment? engine = some (target, meaning, isGlobal)) (name : String) :
    operation.Settles name engine ↔
      target = name ∧ (isGlobal = true ∨ engine.scopes.inner = []) := by
  constructor
  · rintro ⟨other, isGlobal', equal, reaches⟩
    rw [assigned] at equal
    cases equal
    exact ⟨rfl, reaches⟩
  · rintro ⟨rfl, reaches⟩
    exact ⟨meaning, isGlobal, assigned, reaches⟩

theorem ScopeChange.not_settles {engine : Engine} {operation : ScopeChange}
    (unassigned : operation.assignment? engine = none) (name : String) :
    ¬operation.Settles name engine := by
  rintro ⟨meaning, isGlobal, assigned, -⟩
  rw [unassigned] at assigned
  cases assigned

/-- The outermost frame doubles a name behind an operation that has looked up an alias,
or if it did so before and the operation does not settle the name. -/
theorem ScopeChange.doubles_apply_iff (engine : Engine) (operation : ScopeChange)
    (name : String) :
    (operation.apply engine).scopes.base.Doubles name ↔
      (operation = .lookup name ∧ engine.scopes.command? name = none ∧
        engine.scopes.base.aliases.contains name = true) ∨
      (engine.scopes.base.Doubles name ∧ ¬operation.Settles name engine) := by
  rcases operation.apply_cases engine with
    ⟨target, meaning, isGlobal, assigned, given⟩ | ⟨target, rfl, unbound, bound⟩ |
    ⟨unassigned, bound, base, -⟩
  · have notLookup : operation ≠ .lookup name := by
      rintro rfl
      cases assigned
    rw [given, Scopes.base_give, settles_iff assigned]
    by_cases reaches : isGlobal = true ∨ engine.scopes.inner = []
    · simp only [reaches, if_true, Frame.doubles_give_iff]
      tauto
    · simp only [reaches, if_false]
      tauto
  · rw [bound, Scopes.doubles_bindPlaceholder_iff]
    have unassigned : assignment? engine (.lookup target) = none := rfl
    have notSettled := not_settles unassigned name
    by_cases same : target = name
    · subst same
      have weaker : engine.scopes.base.Doubles target →
          engine.scopes.base.aliases.contains target = true := And.right
      simp only [true_and, if_true, unbound, notSettled, not_false_eq_true, and_true]
      tauto
    · simp [same, notSettled]
  · have notSettled := not_settles unassigned name
    rw [base]
    constructor
    · exact fun doubles => .inr ⟨doubles, notSettled⟩
    · rintro (⟨isLookup, unbound, -⟩ | ⟨doubles, -⟩)
      · exact absurd unbound (bound name isLookup)
      · exact doubles

/-- Only the outermost frame doubles names, and what it doubles it binds to
placeholders. -/
structure Sorted (engine : Engine) : Prop where
  single : engine.scopes.SingleInside
  placeholder : ∀ name, engine.scopes.base.Doubles name →
    engine.scopes.base.commands.get? name = some (.unrecognized name)

theorem Sorted.apply {engine : Engine} (isSorted : engine.Sorted) (operation : ScopeChange) :
    (operation.apply engine).Sorted := by
  rcases operation.apply_cases engine with
    ⟨target, meaning, isGlobal, assigned, given⟩ | ⟨target, rfl, unbound, bound⟩ |
    ⟨unassigned, bound, base, inner⟩
  · refine ⟨given ▸ isSorted.single.give target meaning isGlobal, fun name doubles => ?_⟩
    rw [given, Scopes.base_give] at doubles ⊢
    split at doubles
    · next reaches =>
        obtain ⟨different, doublesBefore⟩ := Frame.doubles_give_iff.mp doubles
        rw [if_pos reaches, (Frame.agreeOn_give different _ meaning).1]
        exact isSorted.placeholder name doublesBefore
    · next notReaches =>
        rw [if_neg notReaches]
        exact isSorted.placeholder name doubles
  · refine ⟨?_, fun name doubles => ?_⟩
    · rw [bound]
      exact isSorted.single
    · rw [bound] at doubles ⊢
      rw [Scopes.doubles_bindPlaceholder_iff] at doubles
      simp only [Scopes.bindPlaceholder, Table.get?_insert]
      split
      · next same => rw [same]
      · next different =>
          rw [if_neg different] at doubles
          exact isSorted.placeholder name doubles
  · exact ⟨isSorted.single.of_inner inner, fun name doubles => by
      rw [base] at doubles ⊢
      exact isSorted.placeholder name doubles⟩

/-! ## Sequences of operations -/

/-- Perform operations one after the other. -/
def changeScopes (engine : Engine) (operations : List ScopeChange) : Engine :=
  operations.foldl ScopeChange.apply engine

/-- A state in which nothing has a meaning, and characters have the given categories. -/
def meaningless (engine : Engine) (categories : CategoryTable) : Engine :=
  { engine with scopes := ⟨[], .fresh none categories⟩, counters := .empty }

/-- The name was looked up while it had no command, but an alias in the outermost frame,
and has not got a meaning in the outermost frame since. -/
def Misled (start : Engine) (name : String) (operations : List ScopeChange) : Prop :=
  ∃ before after, operations = before ++ .lookup name :: after ∧
    (start.changeScopes before).scopes.command? name = none ∧
    (start.changeScopes before).scopes.base.aliases.contains name = true ∧
    ∀ between operation rest, after = between ++ operation :: rest →
      ¬operation.Settles name (start.changeScopes (before ++ .lookup name :: between))

theorem changeScopes_concat (start : Engine) (operations : List ScopeChange)
    (last : ScopeChange) :
    start.changeScopes (operations ++ [last]) = last.apply (start.changeScopes operations) := by
  simp [changeScopes]

theorem misled_concat (start : Engine) (name : String) (operations : List ScopeChange)
    (last : ScopeChange) :
    start.Misled name (operations ++ [last]) ↔
      (last = .lookup name ∧ (start.changeScopes operations).scopes.command? name = none ∧
        (start.changeScopes operations).scopes.base.aliases.contains name = true) ∨
      (start.Misled name operations ∧ ¬last.Settles name (start.changeScopes operations)) := by
  constructor
  · rintro ⟨before, after, split, unbound, aliased, unsettled⟩
    rcases List.eq_nil_or_concat after with rfl | ⟨earlier, final, rfl⟩
    · obtain ⟨rfl, isLast⟩ := List.append_inj' split rfl
      exact .inl ⟨List.head_eq_of_cons_eq isLast, unbound, aliased⟩
    · rw [List.concat_eq_append, ← List.cons_append, ← List.append_assoc] at split
      obtain ⟨rfl, isLast⟩ := List.append_inj' split rfl
      obtain rfl : last = final := List.head_eq_of_cons_eq isLast
      refine .inr ⟨⟨before, earlier, rfl, unbound, aliased, ?_⟩, ?_⟩
      · intro between operation rest isEarlier
        exact unsettled between operation (rest ++ [last]) (by simp [isEarlier])
      · exact unsettled earlier last [] (by simp)
  · rintro (⟨rfl, unbound, aliased⟩ | ⟨misled, unsettledLast⟩)
    · exact ⟨operations, [], rfl, unbound, aliased, by simp⟩
    · obtain ⟨before, after, rfl, unbound, aliased, unsettled⟩ := misled
      refine ⟨before, after ++ [last], by simp, unbound, aliased, ?_⟩
      intro between operation rest isAfter
      rcases List.eq_nil_or_concat rest with rfl | ⟨earlier, final, rfl⟩
      · obtain ⟨rfl, isLast⟩ := List.append_inj' isAfter rfl
        rwa [← List.head_eq_of_cons_eq isLast]
      · rw [List.concat_eq_append, ← List.cons_append, ← List.append_assoc] at isAfter
        exact unsettled between operation earlier (List.append_inj' isAfter rfl).1

theorem Sorted.changeScopes {engine : Engine} (isSorted : engine.Sorted)
    (operations : List ScopeChange) : (engine.changeScopes operations).Sorted := by
  induction operations using List.reverseRecOn with
  | nil => exact isSorted
  | append_singleton operations last ih =>
      rw [changeScopes_concat]
      exact ih.apply last

theorem doubles_changeScopes_iff {start : Engine} {name : String}
    (single : ¬start.scopes.base.Doubles name) (operations : List ScopeChange) :
    (start.changeScopes operations).scopes.base.Doubles name ↔ start.Misled name operations := by
  induction operations using List.reverseRecOn with
  | nil => simpa [changeScopes, Misled] using single
  | append_singleton operations last ih =>
      rw [changeScopes_concat, ScopeChange.doubles_apply_iff, misled_concat, ih]

theorem sorted_meaningless (engine : Engine) (categories : CategoryTable) :
    (engine.meaningless categories).Sorted where
  single _ _ member := nomatch member
  placeholder name doubles := absurd doubles (Frame.not_doubles_of_aliases rfl name)

/-- Whatever operations have been performed, a name has a command and an alias exactly if
it was looked up while it was an alias in the outermost frame, has not got a meaning there
since, and no inner frame knows it.  A name has an alias exactly if the innermost frame
that knows it has one; and a name with an alias counts as undefined exactly if it has a
command as well. -/
theorem meanings_clash_iff (bare : Engine) (categories : CategoryTable)
    (operations : List ScopeChange) (name : String) :
    let start := bare.meaningless categories
    let scopes := (start.changeScopes operations).scopes
    ((scopes.command? name).isSome = true ∧ (scopes.alias? name).isSome = true ↔
      (∀ frame ∈ scopes.inner, frame.knows name = false) ∧ start.Misled name operations) ∧
    ((scopes.alias? name).isSome = true ↔
      ∃ frame ∈ scopes.deciding? name, frame.aliases.contains name = true) ∧
    ((scopes.alias? name).isSome = true ∧ scopes.isDefined name = false ↔
      (scopes.command? name).isSome = true ∧ (scopes.alias? name).isSome = true) := by
  intro start scopes
  have isSorted : (start.changeScopes operations).Sorted :=
    (sorted_meaningless bare categories).changeScopes operations
  have clash := isSorted.single.clash_iff name
  refine ⟨?_, ?_, ?_⟩
  · rw [clash, doubles_changeScopes_iff (Frame.not_doubles_of_aliases rfl name)]
  · rw [Scopes.alias?_eq_deciding]
    cases scopes.deciding? name <;> simp [Table.contains]
  · constructor
    · rintro ⟨aliased, undefined⟩
      refine ⟨?_, aliased⟩
      cases isCommand : scopes.command? name with
      | some command => rfl
      | none => simp [Scopes.isDefined, isCommand, aliased] at undefined
    · intro clashes
      obtain ⟨unknown, doubles⟩ := clash.mp clashes
      have isPlaceholder : scopes.command? name = some (.unrecognized name) := by
        rw [Scopes.command?_eq_deciding, Scopes.deciding?_of_unknown unknown doubles]
        exact isSorted.placeholder name doubles
      exact ⟨clashes.2, by simp [Scopes.isDefined, isPlaceholder, Command.isUnrecognized]⟩

/-- An alias that is used as the name of an environment is looked up, and has two
meanings. -/
example :
    let operations : List ScopeChange := [.letToken "x" (.letter 'a') false, .lookup "x"]
    let scopes := ((default : Engine).meaningless .initial |>.changeScopes operations).scopes
    (scopes.command? "x").isSome = true ∧ (scopes.alias? "x").isSome = true ∧
      scopes.isDefined "x" = false := by
  decide

end Engine

end TexTree
