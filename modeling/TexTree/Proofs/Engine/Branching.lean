import Mathlib.Data.Nat.Basic
import Mathlib.Order.Basic
import TexTree.Engine.Condition
import TexTree.Proofs.Engine.Running

/-!
# Cutting a conditional into its branches

A conditional is cut at the marks that belong to it, and the marks of the conditionals
inside of its branches stay where they are (`Engine.conditional_cut`).

Whether a token is a mark depends on what it means and not on how it is written.  The
branches are therefore described for any classification of tokens: `Branches.Nested`
says that tokens are well nested, and a `Conditional` is made of well nested branches
and of the marks between them.  Reading passes over well nested tokens as a whole
(`Branches.Nested.read`), whatever the number of conditionals that are open.
-/

namespace TexTree

namespace Branches

variable {mark : Token → Option BranchMark} {table : CategoryTable} {input rest : Input}
  {token : Token} {inLast : Bool}

/-- Tokens in front of the first case. -/
def prependAll (tokens : List Token) (read : Branches × Input) : Branches × Input :=
  ({ read.1 with firstCase := tokens ++ read.1.firstCase }, read.2)

theorem prepend_prependAll (token : Token) (tokens : List Token) (read : Branches × Input) :
    prepend token (prependAll tokens read) = prependAll (token :: tokens) read := rfl

theorem prependAll_prependAll (first second : List Token) (read : Branches × Input) :
    prependAll first (prependAll second read) = prependAll (first ++ second) read := by
  simp [prependAll]

/-- One step of reading branches. -/
theorem read_next (found : input.next table = (some token, rest)) (depth : Nat) (inLast : Bool) :
    read mark table depth inLast input =
      match mark token, depth, inLast with
      | some .opening, depth, inLast =>
          prepend token (read mark table (depth + 1) inLast rest)
      | some .closing, 0, _ => (ending true, rest)
      | some .closing, depth + 1, inLast => prepend token (read mark table depth inLast rest)
      | some .otherwise, 0, false =>
          let (branches, final) := read mark table 0 true rest
          (⟨[], [], some branches.firstCase, branches.isClosed⟩, final)
      | some .nextCase, 0, false =>
          let (branches, final) := read mark table 0 false rest
          (⟨[], branches.cases, branches.otherwise, branches.isClosed⟩, final)
      | _, depth, inLast => prepend token (read mark table depth inLast rest) := by
  rw [read]
  split
  · next equal =>
      rw [found] at equal
      cases equal
  · next equal =>
      rw [found] at equal
      cases equal
      rfl

/-! ## Well nested tokens -/

/-- A token neither opens nor closes a conditional, and it divides one at most if it stands
inside of one. -/
def Kept (mark : Token → Option BranchMark) (isInner : Bool) (token : Token) : Prop :=
  mark token = none ∨
    isInner ∧ (mark token = some .nextCase ∨ mark token = some .otherwise)

/-- Every conditional that is opened by one of the tokens is closed by one of them, and
all other marks stand inside of such a conditional.  The parameter tells whether the
tokens themselves stand inside of one. -/
inductive Nested (mark : Token → Option BranchMark) : Bool → List Token → Prop where
  | nil (isInner : Bool) : Nested mark isInner []
  | kept {isInner : Bool} {token : Token} {tokens : List Token}
      (isKept : Kept mark isInner token) (following : Nested mark isInner tokens) :
      Nested mark isInner (token :: tokens)
  | conditional {isInner : Bool} {opener closer : Token} {content tokens : List Token}
      (opens : mark opener = some .opening) (inside : Nested mark true content)
      (closes : mark closer = some .closing) (following : Nested mark isInner tokens) :
      Nested mark isInner (opener :: (content ++ closer :: tokens))

theorem read_kept {isInner : Bool} {depth : Nat} (isKept : Kept mark isInner token)
    (isOpen : isInner = true → 0 < depth) (found : input.next table = (some token, rest)) :
    read mark table depth inLast input =
      prepend token (read mark table depth inLast rest) := by
  rw [read_next found]
  rcases isKept with unmarked | ⟨inside, divides | divides⟩
  · rw [unmarked]
  all_goals
    obtain ⟨outer, rfl⟩ := Nat.exists_eq_succ_of_ne_zero (isOpen inside).ne'
    rw [divides]
    cases inLast <;> rfl

theorem read_opener {depth : Nat} (opens : mark token = some .opening)
    (found : input.next table = (some token, rest)) :
    read mark table depth inLast input =
      prepend token (read mark table (depth + 1) inLast rest) := by
  rw [read_next found, opens]

theorem read_inner_closer {depth : Nat} (closes : mark token = some .closing)
    (found : input.next table = (some token, rest)) :
    read mark table (depth + 1) inLast input =
      prepend token (read mark table depth inLast rest) := by
  rw [read_next found, closes]

theorem read_closer (closes : mark token = some .closing)
    (found : input.next table = (some token, rest)) :
    read mark table 0 inLast input = (ending true, rest) := by
  rw [read_next found, closes]

theorem read_otherwise (divides : mark token = some .otherwise)
    (found : input.next table = (some token, rest)) {branches : Branches} {final : Input}
    (behind : read mark table 0 true rest = (branches, final)) :
    read mark table 0 false input =
      (⟨[], [], some branches.firstCase, branches.isClosed⟩, final) := by
  rw [read_next found, divides]
  simp only [behind]

theorem read_nextCase (divides : mark token = some .nextCase)
    (found : input.next table = (some token, rest)) {branches : Branches} {final : Input}
    (behind : read mark table 0 false rest = (branches, final)) :
    read mark table 0 false input =
      (⟨[], branches.cases, branches.otherwise, branches.isClosed⟩, final) := by
  rw [read_next found, divides]
  simp only [behind]

/-- The marks do not depend on positions. -/
def Positionless (mark : Token → Option BranchMark) : Prop :=
  ∀ token, mark token.bare = mark token

/-- The next token is marked as the one that is ahead. -/
theorem Positionless.next (positionless : Positionless mark) {first : Token} {behind : List Token}
    (left : input.ahead table = first.bare :: behind) :
    ∃ token rest, input.next table = (some token, rest) ∧ mark token = mark first ∧
      token.bare = first.bare ∧ rest.ahead table = behind := by
  obtain ⟨token, rest, found, same, following⟩ := Input.next_of_ahead left
  refine ⟨token, rest, found, ?_, same, following⟩
  rw [← positionless token, same, positionless first]

/-- Well nested tokens are passed over.  If they may hold marks that divide the
conditional around them, that conditional has to be among the open ones. -/
theorem Nested.read (positionless : Positionless mark) {isInner : Bool} {body : List Token}
    (nested : Nested mark isInner body) {depth : Nat} (isOpen : isInner = true → 0 < depth)
    {behind : List Token} (left : input.ahead table = body.map Token.bare ++ behind)
    (inLast : Bool) :
    ∃ tokens rest, tokens.map Token.bare = body.map Token.bare ∧ rest.ahead table = behind ∧
      Branches.read mark table depth inLast input =
        prependAll tokens (Branches.read mark table depth inLast rest) := by
  induction nested generalizing depth input behind with
  | nil => exact ⟨[], input, rfl, left, rfl⟩
  | kept isKept _ ih =>
      obtain ⟨token, rest, found, marked, same, following⟩ := positionless.next left
      obtain ⟨tokens, final, bareTokens, last, goesOn⟩ := ih isOpen following
      refine ⟨token :: tokens, final, ?_, last, ?_⟩
      · rw [List.map_cons, same, bareTokens, List.map_cons]
      · rw [Kept, ← marked] at isKept
        rw [read_kept isKept isOpen found, goesOn, prepend_prependAll]
  | conditional opens _ closes _ insideIh followingIh =>
      rw [List.map_cons, List.map_append, List.map_cons, List.cons_append, List.append_assoc,
        List.cons_append] at left
      obtain ⟨first, atContent, found, marked, same, content⟩ := positionless.next left
      obtain ⟨inner, atCloser, bareInner, closer, throughContent⟩ :=
        insideIh (fun _ => Nat.succ_pos depth) content
      obtain ⟨last, atRest, found', marked', same', rest⟩ := positionless.next closer
      obtain ⟨tokens, final, bareTokens, ends, throughRest⟩ := followingIh isOpen rest
      refine ⟨first :: inner ++ last :: tokens, final, ?_, ends, ?_⟩
      · simp only [List.map_cons, List.map_append, same, same', bareInner, bareTokens,
          List.cons_append]
      · rw [read_opener (marked.trans opens) found, throughContent,
          read_inner_closer (marked'.trans closes) found', throughRest, prepend_prependAll,
          prepend_prependAll, prependAll_prependAll]

end Branches

/-! ## Conditionals -/

/-- The part of a conditional behind its test: branches and the marks that start them. -/
structure Conditional (mark : Token → Option BranchMark) where
  first : List Token
  /-- The further cases, each with the mark in front of it. -/
  further : List (Token × List Token)
  /-- The branch for everything else, with the mark in front of it. -/
  otherwise : Option (Token × List Token)
  closer : Token
  nested_first : Branches.Nested mark false first
  nested_further : ∀ branch ∈ further,
    mark branch.1 = some .nextCase ∧ Branches.Nested mark false branch.2
  nested_otherwise : ∀ branch ∈ otherwise,
    mark branch.1 = some .otherwise ∧ Branches.Nested mark false branch.2
  closes : mark closer = some .closing

namespace Conditional

variable {mark : Token → Option BranchMark}

/-- A branch behind its mark. -/
def marked (branch : Token × List Token) : List Token := branch.1 :: branch.2

/-- The tokens in the order in which they are written. -/
def tokens (conditional : Conditional mark) : List Token :=
  conditional.first ++ conditional.further.flatMap marked ++
    conditional.otherwise.toList.flatMap marked ++ [conditional.closer]

/-- All cases. -/
def cases (conditional : Conditional mark) : List (List Token) :=
  conditional.first :: conditional.further.map Prod.snd

/-- The branch for everything else, which is empty if it is missing. -/
def remaining (conditional : Conditional mark) : List Token :=
  (conditional.otherwise.map Prod.snd).getD []

/-- The branch that the outcome of a test leads to. -/
def choose (conditional : Conditional mark) (outcome : Bool) : List Token :=
  if outcome then conditional.first else conditional.remaining

/-- The branch that a number leads to. -/
def select (conditional : Conditional mark) (number : Int) : List Token :=
  if _inRange : 0 ≤ number ∧ number.toNat < conditional.cases.length then
    conditional.cases[number.toNat]
  else conditional.remaining

end Conditional

namespace Branches

variable {mark : Token → Option BranchMark} {table : CategoryTable} {input rest : Input}

/-- The branches that were read are those of the conditional. -/
structure Of (conditional : Conditional mark) (branches : Branches) : Prop where
  cases : branches.cases.map (List.map Token.bare) = conditional.cases.map (List.map Token.bare)
  otherwise : branches.otherwise.map (List.map Token.bare) =
    conditional.otherwise.map fun branch => branch.2.map Token.bare
  isClosed : branches.isClosed = true

theorem Of.remaining {conditional : Conditional mark} {branches : Branches}
    (isOf : Of conditional branches) :
    (branches.otherwise.getD []).map Token.bare = conditional.remaining.map Token.bare := by
  have same := isOf.otherwise
  unfold Conditional.remaining
  cases read : branches.otherwise <;> cases written : conditional.otherwise <;>
    simp_all

/-- A branch is read together with its mark or its end, and what is read behind it follows. -/
theorem read_branch (positionless : Positionless mark) {body : List Token}
    (nested : Nested mark false body) {divider : Token} {behind : List Token}
    (left : input.ahead table = body.map Token.bare ++ divider.bare :: behind) (inLast : Bool) :
    ∃ tokens middle token rest, tokens.map Token.bare = body.map Token.bare ∧
      middle.next table = (some token, rest) ∧ mark token = mark divider ∧
      rest.ahead table = behind ∧
      read mark table 0 inLast input =
        prependAll tokens (read mark table 0 inLast middle) := by
  obtain ⟨tokens, middle, bareTokens, atDivider, through⟩ :=
    nested.read positionless (by simp) left inLast
  obtain ⟨token, rest, found, marked, -, following⟩ := positionless.next atDivider
  exact ⟨tokens, middle, token, rest, bareTokens, found, marked, following, through⟩

/-- The last branch, up to the end of the conditional. -/
theorem read_last (positionless : Positionless mark) {body : List Token}
    (nested : Nested mark false body) {closer : Token} (closes : mark closer = some .closing)
    {behind : List Token}
    (left : input.ahead table = body.map Token.bare ++ closer.bare :: behind) (inLast : Bool) :
    ∃ tokens rest, tokens.map Token.bare = body.map Token.bare ∧ rest.ahead table = behind ∧
      read mark table 0 inLast input = (⟨tokens, [], none, true⟩, rest) := by
  obtain ⟨tokens, middle, token, rest, bareTokens, found, marked, following, through⟩ :=
    read_branch positionless nested left inLast
  refine ⟨tokens, rest, bareTokens, following, ?_⟩
  rw [through, read_closer (marked.trans closes) found]
  simp [prependAll, ending]

/-- The branches of a conditional are read, and nothing behind it.  The induction is on
the cases behind the first one. -/
theorem read_conditional (positionless : Positionless mark) (conditional : Conditional mark)
    {behind : List Token}
    (left : input.ahead table = conditional.tokens.map Token.bare ++ behind) :
    ∃ branches rest, read mark table 0 false input = (branches, rest) ∧
      Of conditional branches ∧ rest.ahead table = behind := by
  obtain ⟨first, further, otherwise, closer, nestedFirst, nestedFurther, nestedOtherwise,
    closes⟩ := conditional
  induction further generalizing first input with
  | nil =>
      cases otherwise with
      | none =>
          have left : input.ahead table = first.map Token.bare ++ closer.bare :: behind := by
            simpa [Conditional.tokens] using left
          obtain ⟨tokens, rest, bareTokens, following, found⟩ :=
            read_last positionless nestedFirst closes left false
          refine ⟨_, rest, found, ⟨?_, rfl, rfl⟩, following⟩
          simp [Branches.cases, Conditional.cases, bareTokens]
      | some branch =>
          obtain ⟨divides, nested⟩ := nestedOtherwise branch rfl
          have left : input.ahead table = first.map Token.bare ++
              branch.1.bare :: (branch.2.map Token.bare ++ closer.bare :: behind) := by
            simpa [Conditional.tokens, Conditional.marked] using left
          obtain ⟨tokens, middle, token, rest, bareTokens, found, marked, following, through⟩ :=
            read_branch positionless nestedFirst left false
          obtain ⟨last, final, bareLast, ends, read⟩ :=
            read_last positionless nested closes following true
          refine ⟨⟨tokens, [], some last, true⟩, final, ?_, ⟨?_, ?_, rfl⟩, ends⟩
          · rw [through, read_otherwise (marked.trans divides) found read]
            simp [prependAll]
          · simp [Branches.cases, Conditional.cases, bareTokens]
          · simp [bareLast]
  | cons branch more ih =>
      obtain ⟨divides, nested⟩ := nestedFurther branch List.mem_cons_self
      let shorter : Conditional mark := ⟨branch.2, more, otherwise, closer, nested,
        fun other member => nestedFurther other (List.mem_cons_of_mem _ member),
        nestedOtherwise, closes⟩
      have left : input.ahead table = first.map Token.bare ++
          branch.1.bare :: (shorter.tokens.map Token.bare ++ behind) := by
        simpa [shorter, Conditional.tokens, Conditional.marked] using left
      obtain ⟨tokens, middle, token, rest, bareTokens, found, marked, following, through⟩ :=
        read_branch positionless nestedFirst left false
      obtain ⟨branches, final, read, ⟨cases, last, isClosed⟩, ends⟩ :=
        ih branch.2 nested shorter.nested_further following
      refine ⟨⟨tokens, branches.cases, branches.otherwise, branches.isClosed⟩, final, ?_,
        ⟨?_, last, isClosed⟩, ends⟩
      · rw [through, read_nextCase (marked.trans divides) found read]
        simp [prependAll]
      · calc (tokens :: branches.cases).map (List.map Token.bare)
            = first.map Token.bare :: branches.cases.map (List.map Token.bare) := by
              rw [List.map_cons, bareTokens]
          _ = _ := by
              rw [cases]
              rfl

/-- The outcome of a test selects the same branch as among those that were written. -/
theorem Of.choose {conditional : Conditional mark} {branches : Branches}
    (isOf : Of conditional branches) (outcome : Bool) :
    ((branches.choose outcome).getD []).map Token.bare =
      (conditional.choose outcome).map Token.bare := by
  cases outcome with
  | true => exact (List.cons.inj isOf.cases).1
  | false => exact isOf.remaining

/-- A number selects the same branch as among those that were written. -/
theorem Of.select {conditional : Conditional mark} {branches : Branches}
    (isOf : Of conditional branches) (number : Int) :
    ((branches.select number).getD []).map Token.bare =
      (conditional.select number).map Token.bare := by
  have sameLength : branches.cases.length = conditional.cases.length := by
    simpa using congrArg List.length isOf.cases
  unfold Branches.select Conditional.select
  by_cases inRange : 0 ≤ number ∧ number.toNat < conditional.cases.length
  · have before : 0 ≤ number ∧ number < branches.cases.length := by omega
    have sameCase := congrArg (fun cases => cases[number.toNat]?) isOf.cases
    simp only [List.getElem?_map, List.getElem?_eq_getElem inRange.2, Option.map_some] at sameCase
    rw [if_pos before, dif_pos inRange]
    obtain ⟨tokens, found, same⟩ := Option.map_eq_some_iff.mp sameCase
    rw [found, Option.getD_some, same]
  · have beyond : ¬ (0 ≤ number ∧ number < branches.cases.length) := by omega
    rw [if_neg beyond, dif_neg inRange]
    exact isOf.remaining

end Branches

namespace Engine

variable {engine : Engine}

theorem runs_readBranches (conditional : Conditional engine.scopes.branchMark)
    {behind : List Token}
    (left : engine.input.ahead engine.scopes.categories =
      (conditional.tokens ++ behind).map Token.bare) :
    Runs readBranches engine fun branches after =>
      Branches.Of conditional branches ∧ GoesOn engine behind after := by
  rw [List.map_append] at left
  obtain ⟨branches, rest, read, isOf, following⟩ :=
    Branches.read_conditional (fun _ => rfl) conditional left
  refine runs_get ((runs_reading read following).bind ?_)
  rintro found after ⟨rfl, goesOn⟩
  rw [isOf.isClosed]
  exact runs_pure ⟨isOf, goesOn⟩

/-- A conditional is cut at its own marks: all of its branches are read, the marks inside
of them stay where they are, and nothing is read behind its end.  Interpretation goes on
with the branch that is selected. -/
theorem conditional_cut (conditional : Conditional engine.scopes.branchMark)
    (behind : List Token)
    (left : engine.input.ahead engine.scopes.categories =
      (conditional.tokens ++ behind).map Token.bare) :
    (Runs readBranches engine fun branches after =>
      Branches.Of conditional branches ∧ GoesOn engine behind after) ∧
    (∀ outcome : Bool, Runs (takeBranch outcome) engine fun _ after =>
      GoesOn engine (conditional.choose outcome ++ behind) after) ∧
    (∀ number : Int, Runs (takeCase number) engine fun _ after =>
      GoesOn engine (conditional.select number ++ behind) after) := by
  have branched := runs_readBranches conditional left
  refine ⟨branched, fun outcome => ?_, fun number => ?_⟩
  · refine branched.bind ?_
    rintro branches after ⟨isOf, goesOn⟩
    exact goesOn.runs_pushTokens (isOf.choose outcome)
  · refine branched.bind ?_
    rintro branches after ⟨isOf, goesOn⟩
    exact goesOn.runs_pushTokens (isOf.select number)

/-- In these scopes `\stop` means `\fi` and `\draft` is a switch, while `\ifnew` has no
meaning. -/
def markingScopes : Scopes :=
  let primitive := fun name => Command.primitive name (.expansion .nothing)
  let frame := Frame.fresh none .initial
  ⟨[], { frame with commands := .ofList [("fi", primitive "fi"), ("stop", primitive "fi"),
    ("else", primitive "else"), ("or", primitive "or"), ("draft", .switch "draft" true)] }⟩

/-- A conditional inside of a case, in which another one stands. -/
def innerConditional : List Token :=
  [.control "draft", .letter 'b', .control "else", .control "ifnew", .control "or",
    .control "fi", .letter 'c', .control "stop"]

theorem nested_innerConditional (isInner : Bool) :
    Branches.Nested markingScopes.branchMark isInner innerConditional := by
  have kept : ∀ {token : Token} {rest : List Token},
      Branches.Kept markingScopes.branchMark true token →
      Branches.Nested markingScopes.branchMark true rest →
      Branches.Nested markingScopes.branchMark true (token :: rest) := .kept
  have divider : Branches.Nested markingScopes.branchMark true [.control "or"] :=
    kept (.inr (by decide +kernel)) (.nil true)
  have unnamed : Branches.Nested markingScopes.branchMark true
      [.control "ifnew", .control "or", .control "fi", .letter 'c'] :=
    .conditional (by decide +kernel) divider (by decide +kernel)
      (kept (.inl (by decide +kernel)) (.nil true))
  have content : Branches.Nested markingScopes.branchMark true
      [.letter 'b', .control "else", .control "ifnew", .control "or", .control "fi",
        .letter 'c'] :=
    kept (.inl (by decide +kernel)) (kept (.inr (by decide +kernel)) unnamed)
  exact .conditional (by decide +kernel) content (by decide +kernel) (.nil isInner)

/-- Two cases and a branch for everything else.  The second case is a conditional. -/
def outerConditional : Conditional markingScopes.branchMark where
  first := [.letter 'a']
  further := [(.control "or", innerConditional)]
  otherwise := some (.control "else", [.letter 'e'])
  closer := .control "stop"
  nested_first := .kept (.inl (by decide +kernel)) (.nil false)
  nested_further := by
    rintro branch member
    obtain rfl := List.mem_singleton.mp member
    exact ⟨by decide +kernel, nested_innerConditional false⟩
  nested_otherwise := by
    rintro branch ⟨⟩
    exact ⟨by decide +kernel, .kept (.inl (by decide +kernel)) (.nil false)⟩
  closes := by decide +kernel

/-- An engine in front of these branches. -/
def branchingEngine : Engine :=
  { (default : Engine) with
    scopes := markingScopes
    input := Input.empty.pushTokens (outerConditional.tokens ++ [Token.letter 'x']) }

theorem conditional_cut_nested :
    branchingEngine.input.ahead branchingEngine.scopes.categories =
      (outerConditional.tokens ++ [Token.letter 'x']).map Token.bare ∧
    (Runs readBranches branchingEngine fun branches after =>
      Branches.Of outerConditional branches ∧ GoesOn branchingEngine [.letter 'x'] after) ∧
    (Runs (takeBranch true) branchingEngine fun _ after =>
      GoesOn branchingEngine [.letter 'a', .letter 'x'] after) ∧
    (Runs (takeCase 1) branchingEngine fun _ after =>
      GoesOn branchingEngine (innerConditional ++ [.letter 'x']) after) ∧
    (Runs (takeCase 2) branchingEngine fun _ after =>
      GoesOn branchingEngine [.letter 'e', .letter 'x'] after) := by
  have left : branchingEngine.input.ahead branchingEngine.scopes.categories =
      (outerConditional.tokens ++ [Token.letter 'x']).map Token.bare := by
    rw [branchingEngine, Input.ahead_pushTokens, Input.ahead_empty, List.append_nil]
  obtain ⟨branched, chosen, selected⟩ :=
    @conditional_cut branchingEngine outerConditional [.letter 'x'] left
  exact ⟨left, branched, chosen true, selected 1, selected 2⟩

end Engine

end TexTree
