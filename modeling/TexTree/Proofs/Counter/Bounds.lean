import Mathlib.Data.Int.Order.Basic
import TexTree.Proofs.Counter.Interpreting

/-!
# Bounds of counters

Whatever is added to a counter, its value stays between the greatest number that can be
written in a source and its opposite.  A counter that is set, however, gets the number as
it was read, and a number may be read from a register, which holds more than that.  So a
counter leaves the bounds by being set to such a number, and in no other way
(`counters_bounded`).
-/

namespace TexTree

namespace Counters

variable {counters changed : Counters} {stored : List (String × Int)}

/-- The value lies between the greatest number and its opposite. -/
def IsBounded (value : Int) : Prop := -maxNumber ≤ value ∧ value ≤ maxNumber

/-- Every value is bounded, or is stored as the value of that counter. -/
def BoundedBut (stored : List (String × Int)) (counters : Counters) : Prop :=
  ∀ counter ∈ counters.list, IsBounded counter.value ∨ (counter.name, counter.value) ∈ stored

theorem isBounded_zero : IsBounded 0 := ⟨by decide, by decide⟩

theorem isBounded_clamp (value : Int) : IsBounded (max (-maxNumber) (min value maxNumber)) := by
  have order : -maxNumber ≤ maxNumber := by decide
  exact ⟨le_max_left _ _, max_le order (min_le_right _ _)⟩

/-- A counter whose value is changed gets a value that is bounded or stored, and those
below it become zero. -/
theorem BoundedBut.update? {name : String} {change : Int → Int}
    (bounded : counters.BoundedBut stored)
    (changes : ∀ value, IsBounded (change value) ∨ (name, change value) ∈ stored)
    (isChanged : counters.update? name change = some changed) : changed.BoundedBut stored := by
  unfold Counters.update? at isChanged
  split at isChanged
  case isFalse => cases isChanged
  cases isChanged
  intro counter member
  obtain ⟨old, memberOld, rfl⟩ := List.mem_map.mp member
  split
  · next isNamed =>
      rw [beq_iff_eq.mp isNamed]
      exact changes old.value
  · split
    · exact .inl isBounded_zero
    · exact bounded old memberOld

theorem upheld_boundedBut (stored : List (String × Int)) : Upheld (BoundedBut stored) where
  create := by
    intro counters created name superior bounded _ isCreated
    unfold create? at isCreated
    split at isCreated
    · cases isCreated
    cases isCreated
    intro counter member
    rcases List.mem_append.mp member with old | new
    · exact bounded counter old
    · rw [List.mem_singleton.mp new]
      exact .inl isBounded_zero
  add := fun bounded isChanged => bounded.update? (fun _ => .inl (isBounded_clamp _)) isChanged
  clear := fun bounded isChanged => bounded.update? (fun _ => .inl isBounded_zero) isChanged

theorem boundedBut_empty : BoundedBut stored empty := by
  intro counter member
  cases member

/-- A counter leaves the bounds only with the number that it is set to. -/
theorem BoundedBut.set (bounded : counters.BoundedBut stored) (name : String) (value : Int) :
    ((counters.set? name value).getD counters).BoundedBut ((name, value) :: stored) := by
  have more : counters.BoundedBut ((name, value) :: stored) := fun counter member =>
    (bounded counter member).imp_right (List.mem_cons_of_mem (name, value))
  cases isSet : counters.set? name value with
  | none => exact more
  | some changed => exact more.update? (fun _ => .inr List.mem_cons_self) isSet

/-- A counter that exists has the value that it was set to. -/
theorem value?_set {name : String} (exist : counters.contains name = true) (value : Int) :
    ((counters.set? name value).getD counters).value? name = some value := by
  obtain ⟨old, found⟩ := Option.isSome_iff_exists.mp exist
  unfold get? at found
  have isNamed := List.find?_some found
  -- The changed counters have the old names, so that the same one is found.
  have sameNames : ∀ counter : Counter,
      ((if counter.name == name then { counter with value }
        else if counters.isBelow counter.name name then { counter with value := 0 }
        else counter).name == name) = (counter.name == name) := by
    intro counter
    split
    · rfl
    · split <;> rfl
  simp only [set?, Counters.update?, exist, if_true, Option.getD_some, value?, get?, update,
    List.find?_map, Function.comp_def, sameNames, found, Option.map_some, isNamed]

end Counters

namespace Engine

variable {engine : Engine} {interpreter : Interpreter} {stored : List (String × Int)}

/-- The name of a counter and the number that it is to be set to, or that is to be added
to it. -/
def readSetting (interpreter : Interpreter) (token : Token) : TexM (String × Int) := do
  let name ← readName
  let tokens ← readArgumentFor token.text
  let value ← readingTokens tokens (readInteger interpreter)
  return (name, value)

/-- What a command for setting counters stores, given what it has read. -/
def storedBy (token : Token) : EStateM.Result TexError Engine (String × Int) → List (String × Int)
  | .ok setting _ => if token.isNamed "addtocounter" then [] else [setting]
  | .error _ _ => []

theorem ok_of_storedBy {token : Token} {setting : String × Int}
    {result : EStateM.Result TexError Engine (String × Int)}
    (isStored : storedBy token result = [setting]) : ∃ after, result = .ok setting after := by
  cases result with
  | error error after => cases isStored
  | ok read after =>
      rw [storedBy] at isStored
      split at isStored
      · cases isStored
      · cases isStored
        exact ⟨after, rfl⟩

theorem setCounter_eq (interpreter : Interpreter) (token : Token) :
    setCounter interpreter token = (do
      let (name, value) ← readSetting interpreter token
      let found ← changeCounters fun counters =>
        if token.isNamed "addtocounter" then counters.add? name value
        else counters.set? name value
      if !found then warnNoCounter name) := by
  simp only [setCounter, readSetting, bind_assoc, pure_bind]

theorem counters_readSetting (reads : ∀ holds, interpreter.Reads holds) (token : Token)
    (engine : Engine) :
    (left (readSetting interpreter token engine)).counters = engine.counters := by
  have upholds : Upholds (· = engine.counters) (readSetting interpreter token) := by
    have readsHere := reads (· = engine.counters)
    unfold readSetting
    refine retains_readName.bind fun name => (retains_readArgumentFor _).bind fun tokens => ?_
    refine (retains_readingTokens tokens (retains_readInteger readsHere)).bind fun value => ?_
    exact retains_pure _
  exact upholds engine rfl

/-- Setting a counter stores the number as it was read. -/
theorem counters_setCounter (reads : ∀ holds, interpreter.Reads holds) (token : Token)
    (engine : Engine) :
    (left (setCounter interpreter token engine)).counters =
      match readSetting interpreter token engine with
      | .ok (name, value) _ =>
          (if token.isNamed "addtocounter" then engine.counters.add? name value
            else engine.counters.set? name value).getD engine.counters
      | .error _ _ => engine.counters := by
  have same := counters_readSetting reads token engine
  rw [setCounter_eq]
  simp only [Bind.bind, EStateM.bind]
  cases run : readSetting interpreter token engine with
  | error error after =>
      rw [run] at same
      exact same
  | ok setting after =>
      rw [run] at same
      obtain ⟨name, value⟩ := setting
      change after.counters = engine.counters at same
      simp only [changeCounters, modifyGet_run, same]
      generalize (if token.isNamed "addtocounter" = true then engine.counters.add? name value
        else engine.counters.set? name value) = changed
      cases changed with
      | none => exact same
      | some counters => rfl

/-! ## Sequences of commands -/

/-- Actions that do nothing but what they say: they neither set a counter to a number
that they read, nor interpret what they are given. -/
def Plain (action : Action) : Prop :=
  action ≠ .setCounter ∧ action ≠ .loadPackages ∧ action ≠ .newTheorem

/-- The engines that come about by commands for counters and registers and by numbered
elements, with the names of the counters that have been set and the numbers that were
stored in them. -/
inductive Counted : List (String × Int) → Engine → Prop where
  | fresh (settings : Settings) (files : Files) (date : Date)
      (libraries : Table (List Element)) : Counted [] (fresh settings files date libraries)
  /-- There is something else to be read. -/
  | given {stored : List (String × Int)} {engine : Engine} (counted : Counted stored engine)
      (input : Input) : Counted stored { engine with input }
  | set {stored : List (String × Int)} {engine : Engine} (counted : Counted stored engine)
      (fuel : Nat) (token : Token) :
      Counted (storedBy token (readSetting (Engine.interpreter fuel) token engine) ++ stored)
        (left (setCounter (Engine.interpreter fuel) token engine))
  | command {stored : List (String × Int)} {engine : Engine} (counted : Counted stored engine)
      (fuel : Nat) (token : Token) {action : Action} (plain : Plain action) :
      Counted stored (left (perform (Engine.interpreter fuel) token action engine))
  | assign {stored : List (String × Int)} {engine : Engine} (counted : Counted stored engine)
      (fuel : Nat) (register : String) :
      Counted stored (left (assignRegister (Engine.interpreter fuel) register engine))
  | numbered {stored : List (String × Int)} {engine : Engine} (counted : Counted stored engine)
      (node : NodeId) (counter : String) : Counted stored (left (number node counter engine))
  /-- Lists and their items are counted, and the counter that an argument names. -/
  | hook {stored : List (String × Int)} {engine : Engine} (counted : Counted stored engine)
      (node : NodeId) (mode : Mode) (hook : ElementHook) :
      Counted stored (left (runHook node mode hook engine))

theorem upholds_plain {holds : Counters → Prop} (upheld : Counters.Upheld holds)
    (reads : interpreter.Reads holds) (token : Token) {action : Action} (plain : Plain action) :
    Upholds holds (perform interpreter token action) := by
  cases action
  case setCounter => exact absurd rfl plain.1
  case loadPackages => exact absurd rfl plain.2.1
  case newTheorem => exact absurd rfl plain.2.2
  case newCounter => exact upholds_createNamedCounter upheld
  case stepCounter => exact upholds_stepCounter upheld
  all_goals grind [perform]

theorem Counted.boundedBut (counted : Counted stored engine) :
    engine.counters.BoundedBut stored := by
  induction counted with
  | fresh settings files date libraries =>
      exact counters_fresh (Counters.upheld_boundedBut []) Counters.boundedBut_empty settings files
        date libraries
  | given _ _ ih => exact ih
  | @set stored engine _ fuel token ih =>
      rw [counters_setCounter fun holds => reads_interpreter holds fuel]
      cases readSetting (Engine.interpreter fuel) token engine with
      | error error after => exact ih
      | ok setting after =>
          obtain ⟨name, value⟩ := setting
          simp only [storedBy]
          split
          · cases isAdded : engine.counters.add? name value with
            | none => exact ih
            | some changed => exact (Counters.upheld_boundedBut stored).add ih isAdded
          · exact Counters.BoundedBut.set ih name value
  | command _ fuel token plain ih =>
      exact upholds_plain (Counters.upheld_boundedBut _) (reads_interpreter _ fuel) token plain _ ih
  | assign _ fuel register ih =>
      exact retains_assignRegister (reads_interpreter (Counters.BoundedBut _) fuel) register _ ih
  | numbered _ node counter ih =>
      exact upholds_number (Counters.upheld_boundedBut _) node counter _ ih
  | hook _ node mode hook ih =>
      exact upholds_runHook (Counters.upheld_boundedBut _) node mode hook _ ih

/-- After any sequence of commands for counters and registers and of numbered elements, a
counter has a bounded value, or the number that it was set to; and when a counter is set,
it gets the number as it was read, whether that is bounded or not. -/
theorem counters_bounded (counted : Counted stored engine) :
    (∀ counter ∈ engine.counters.list,
      Counters.IsBounded counter.value ∨ (counter.name, counter.value) ∈ stored) ∧
    ∀ (fuel : Nat) (token : Token) (name : String) (value : Int) (after : Engine),
      token.isNamed "addtocounter" = false → engine.counters.contains name = true →
      readSetting (Engine.interpreter fuel) token engine = .ok (name, value) after →
      (left (setCounter (Engine.interpreter fuel) token engine)).counters.value? name =
        some value := by
  refine ⟨counted.boundedBut, ?_⟩
  intro fuel token name value after sets exist read
  rw [counters_setCounter (fun holds => reads_interpreter holds fuel), read]
  simpa [sets] using Counters.value?_set exist value

/-- A register is advanced beyond the greatest number, and a counter is set to it. -/
theorem counters_bounded_register :
    let perform (engine : Engine) (command : String) (action : Action) (arguments : String) :=
      left (perform (Engine.interpreter 20) (.control command) action
        { engine with input := Input.empty.pushText arguments "" })
    let allocated := perform (fresh {} default ⟨2021, 3, 4⟩ .empty) "newcount" .newRegister "\\r"
    let assigned := left (assignRegister (Engine.interpreter 20) "r"
      { allocated with input := Input.empty.pushText "=2147483647 " "" })
    let advanced := perform assigned "advance" .arithmetic "\\r by 1 "
    let created := perform advanced "newcounter" .newCounter "\x7bc\x7d"
    let given := { created with input := Input.empty.pushText "\x7bc\x7d\x7b\\r\x7d" "" }
    (left (setCounter (Engine.interpreter 20) (.control "setcounter") given)).counters.value? "c" =
      some 2147483648 := by
  have start : Counted [] (fresh {} default ⟨2021, 3, 4⟩ .empty) := .fresh _ _ _ _
  rw [fresh, Builtin.scopes_eq] at start ⊢
  intro perform allocated assigned advanced created given
  have performed : ∀ {stored : List (String × Int)} {engine : Engine} (command : String)
      {action : Action} (arguments : String), Plain action → Counted stored engine →
      Counted stored (perform engine command action arguments) :=
    fun command _ arguments plain counted => .command (.given counted _) 20 _ plain
  have counted : Counted [] given :=
    .given (performed "newcounter" _ ⟨by simp, by simp, by simp⟩
      (performed "advance" _ ⟨by simp, by simp, by simp⟩
        (.assign (.given (performed "newcount" _ ⟨by simp, by simp, by simp⟩ start) _) 20
          "r"))) _
  have facts : (given.counters.contains "c", storedBy (.control "setcounter")
      (readSetting (Engine.interpreter 20) (.control "setcounter") given)) =
        (true, [("c", 2147483648)]) := by
    decide +kernel
  obtain ⟨exist, isStored⟩ := Prod.mk.inj facts
  obtain ⟨after, read⟩ := ok_of_storedBy isStored
  exact (counters_bounded counted).2 20 (.control "setcounter") "c" _ after (by decide) exist read

end Engine

end TexTree
