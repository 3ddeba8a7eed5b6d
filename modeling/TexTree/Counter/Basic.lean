import TexTree.Numeral

/-!
# Counters

A counter is a named integer that may be subordinate to another counter: setting
or stepping a counter puts all counters below it back to zero.  Counters are
created once and never removed.
-/

namespace TexTree

/-- The greatest number that can be written in a source; counters stay between
it and its opposite. -/
def maxNumber : Int := 2147483647

/-- A named integer. -/
structure Counter where
  name : String
  /-- The counter that this one is subordinate to. -/
  resetBy : Option String
  value : Int
  deriving DecidableEq, Repr, Inhabited

/-- The value in one of the six styles. -/
def Counter.format? (counter : Counter) : String → Option String
  | "arabic" => some (toString counter.value)
  | "roman" => some (Numeral.roman counter.value)
  | "Roman" => some (Numeral.capital (Numeral.roman counter.value))
  | "alph" => some (Numeral.alphabetic counter.value)
  | "Alph" => some (Numeral.capital (Numeral.alphabetic counter.value))
  | "fnsymbol" => some (Numeral.footnoteSymbol counter.value)
  | _ => none

/-- The counters of a document, in the order of their creation. -/
structure Counters where
  list : List Counter
  deriving DecidableEq, Repr, Inhabited

namespace Counters

/-- No counters. -/
def empty : Counters := ⟨[]⟩

/-- The counter with the given name. -/
def get? (counters : Counters) (name : String) : Option Counter :=
  counters.list.find? fun counter => counter.name == name

/-- Whether there is a counter with the given name. -/
def contains (counters : Counters) (name : String) : Bool := (counters.get? name).isSome

/-- The value of a counter. -/
def value? (counters : Counters) (name : String) : Option Int :=
  (counters.get? name).map Counter.value

/-- The counter that another one is subordinate to. -/
def superior? (counters : Counters) (name : String) : Option String :=
  (counters.get? name).bind Counter.resetBy

/-- Create a counter, unless there is one with that name. -/
def create? (counters : Counters) (name : String) (resetBy : Option String) (value : Int) :
    Option Counters :=
  if counters.contains name then none
  else some ⟨counters.list ++ [⟨name, resetBy, value⟩]⟩

/-- Whether going from a counter to its superior at most so many times, and at
least once, leads to the target. -/
def leadsTo (counters : Counters) (target : String) : Nat → String → Bool
  | 0, _ => false
  | steps + 1, name =>
      match counters.superior? name with
      | none => false
      | some superior => superior == target || counters.leadsTo target steps superior

/-- Whether a counter is, directly or indirectly, subordinate to another one. -/
def isBelow (counters : Counters) (name target : String) : Bool :=
  counters.leadsTo target counters.list.length name

/-- Change the value of a counter and put all counters below it back to zero. -/
def update (counters : Counters) (name : String) (change : Int → Int) : Counters :=
  ⟨counters.list.map fun counter =>
    if counter.name == name then { counter with value := change counter.value }
    else if counters.isBelow counter.name name then { counter with value := 0 }
    else counter⟩

/-- Change the value of an existing counter. -/
def update? (counters : Counters) (name : String) (change : Int → Int) : Option Counters :=
  if counters.contains name then some (counters.update name change) else none

/-- Give a counter a value. -/
def set? (counters : Counters) (name : String) (value : Int) : Option Counters :=
  counters.update? name fun _ => value

/-- Add to the value of a counter, staying within the greatest numbers. -/
def add? (counters : Counters) (name : String) (amount : Int) : Option Counters :=
  counters.update? name fun value => max (-maxNumber) (min (value + amount) maxNumber)

/-- Add one to the value of a counter. -/
def step? (counters : Counters) (name : String) : Option Counters := counters.add? name 1

/-- Follow the superiors of a counter; whether they lead to the name before the
given number of steps is used up, or use it up. -/
def meets (counters : Counters) (name : String) : Nat → String → Bool
  | steps, current =>
      current == name ||
        match steps with
        | 0 => true
        | steps + 1 =>
            match counters.superior? current with
            | none => false
            | some superior => counters.meets name steps superior

/-- Whether a counter that is made subordinate to another one would be
subordinate to itself. -/
def wouldCycle (counters : Counters) (name superior : String) : Bool :=
  counters.meets name counters.list.length superior

end Counters

end TexTree
