import TexTree.Input

/-!
# The branches of a conditional

Behind the test of a conditional stand its branches: the cases, divided by `\or`,
and after `\else` the branch for everything else, up to `\fi`.  They are read
without expanding anything; a conditional inside of a branch is passed over as a
whole.
-/

namespace TexTree

/-- What a token means to the branches of a conditional. -/
inductive BranchMark where
  /-- It starts another conditional. -/
  | opening
  /-- It starts the next case. -/
  | nextCase
  /-- It starts the branch for everything else. -/
  | otherwise
  /-- It ends the conditional. -/
  | closing
  deriving DecidableEq, Repr, Inhabited

/-- The branches of a conditional. -/
structure Branches where
  firstCase : List Token
  furtherCases : List (List Token)
  otherwise : Option (List Token)
  /-- Whether the end of the conditional was found. -/
  isClosed : Bool
  deriving DecidableEq, Repr, Inhabited

namespace Branches

/-- Nothing but the end of the conditional, or of the input. -/
def ending (isClosed : Bool) : Branches := ⟨[], [], none, isClosed⟩

/-- All cases. -/
def cases (branches : Branches) : List (List Token) :=
  branches.firstCase :: branches.furtherCases

/-- The case with a number, counted from zero, or else the branch for everything
else. -/
def select (branches : Branches) (number : Int) : Option (List Token) :=
  if 0 ≤ number ∧ number < branches.cases.length then branches.cases[number.toNat]?
  else branches.otherwise

/-- The first case if the test succeeded, the branch for everything else if it
failed. -/
def choose (branches : Branches) (outcome : Bool) : Option (List Token) :=
  if outcome then some branches.firstCase else branches.otherwise

/-- A token before the first case. -/
def prepend (token : Token) (read : Branches × Input) : Branches × Input :=
  ({ read.1 with firstCase := token :: read.1.firstCase }, read.2)

/-- The branches from here to the end of the conditional, with so many other
conditionals open.  `inLast` tells that the branch for everything else has been
reached. -/
def read (mark : Token → Option BranchMark) (table : CategoryTable) (depth : Nat)
    (inLast : Bool) (input : Input) : Branches × Input :=
  match _found : input.next table with
  | (none, rest) => (ending false, rest)
  | (some token, rest) =>
      match mark token, depth, inLast with
      | some .opening, depth, inLast =>
          prepend token (read mark table (depth + 1) inLast rest)
      | some .closing, 0, _ => (ending true, rest)
      | some .closing, depth + 1, inLast => prepend token (read mark table depth inLast rest)
      | some .otherwise, 0, false =>
          let (branches, final) := read mark table 0 true rest
          (⟨[], [], some branches.firstCase, branches.isClosed⟩, final)
      | some .nextCase, 0, false =>
          let (branches, final) := read mark table 0 false rest
          (⟨[], branches.cases, branches.otherwise, branches.isClosed⟩, final)
      | _, depth, inLast => prepend token (read mark table depth inLast rest)
termination_by input.size
decreasing_by all_goals exact Input.size_next _found

end Branches

end TexTree
