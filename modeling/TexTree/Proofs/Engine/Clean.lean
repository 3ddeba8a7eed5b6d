import TexTree.Proofs.Engine.Beginning
import TexTree.Proofs.Engine.Sealed
import TexTree.Proofs.Scope.Stack

/-!
# Nothing is left of a source

Whatever a source has opened is closed behind it, and whatever it has announced for
later is forgotten: only definitions, counters, registers, references and files stay
(`Clean`).  A source that fails drops its input.  One that succeeds has used it up,
since the root takes up items until there is none, and there is none only if no token
is left.
-/

namespace TexTree

/-- The stack of frames is not empty, and the frame at the bottom belongs to no
element. -/
def Scopes.Grounded (scopes : Scopes) : Prop :=
  ∃ bottom, scopes.frames.getLast? = some bottom ∧ bottom.owner = none

theorem Scopes.Regular.grounded {scopes : Scopes} (regular : scopes.Regular) :
    scopes.Grounded :=
  ⟨scopes.base, scopes.getLast?_frames, regular.owner⟩

namespace Engine

/-- Nothing is open, announced or left to read, and the document is new. -/
structure Clean (engine : Engine) : Prop where
  frames : engine.scopes.frames = [engine.scopes.base]
  bottom : engine.scopes.base.owner = none
  input : engine.input = .empty
  mathStack : engine.mathStack = []
  buffer : engine.buffer = []
  environments : engine.environments = []
  listDepth : engine.listDepth = 0
  expansions : engine.expansions = 0
  globalNext : engine.globalNext = false
  protectedNext : engine.protectedNext = false
  current : engine.references.current = none
  document : engine.document = .empty

variable {engine : Engine}

/-! ## The input is used up -/

/-- What a computation results in wherever it starts, it results in behind another
one. -/
theorem results_behind {α β : Type} {first : TexM α} {second : α → TexM β}
    {post : β → Engine → Prop} (next : ∀ value after, Results (second value) after post) :
    Results (first >>= second) engine post := by
  have unknown : Results first engine fun _ _ => True := fun _ _ _ => trivial
  exact unknown.bind fun value after _ => next value after

/-- There is no next token only if nothing is left in the input. -/
theorem Input.empty_of_nextOf {table : CategoryTable} {sources rest : List Source}
    (ended : Input.nextOf table sources = (none, rest)) : rest = [] := by
  fun_induction Input.nextOf table sources with
  | case1 => exact (congrArg Prod.snd ended).symm
  | case2 rest' ih => exact ih ended
  | case3 => simp at ended
  | case4 => simp at ended
  | case5 reader rest' reader' equal ih => exact ih ended

theorem results_nextToken_none :
    Results nextToken engine fun token after => token = none → after.input = .empty := by
  have read : Results nextRaw engine fun token after => token = none → after.input = .empty := by
    refine results_modifyGet ?_
    intro ended
    have rest := Input.empty_of_nextOf (Prod.ext ended rfl)
    simpa [Input.next, Input.empty] using rest
  refine read.bind ?_
  intro token after empty
  cases token with
  | none => exact results_pure fun _ => empty rfl
  | some token =>
      dsimp only
      split
      · refine results_get.bind ?_
        rintro _ _ ⟨rfl, rfl⟩
        split
        · exact results_pure fun isNone => by cases isNone
        · exact results_pure fun isNone => by cases isNone
      · exact results_pure fun isNone => by cases isNone

/-- There is no next item only if nothing is left in the input. -/
theorem results_nextItemWithin_none {interpreter : Interpreter} (steps : Nat) :
    Results (nextItemWithin interpreter steps) engine fun item after =>
      item = none → after.input = .empty := by
  induction steps generalizing engine with
  | zero => exact results_fail
  | succ steps ih =>
      unfold nextItemWithin
      refine results_get.bind ?_
      rintro _ _ ⟨rfl, rfl⟩
      split
      · exact results_behind fun _ _ => results_pure fun isNone => by cases isNone
      · refine results_nextToken_none.bind ?_
        intro token after empty
        cases token with
        | none => exact results_pure fun _ => empty rfl
        | some token =>
            refine results_behind ?_
            intro item last
            cases item with
            | none => exact ih
            | some item => exact results_pure fun isNone => by cases isNone

/-- The root stops to take up items only when nothing is left in the input. -/
theorem results_digestRootWithin (fuel steps : Nat) :
    Results (digestRootWithin (interpreter fuel) steps) engine fun _ after =>
      after.input = .empty := by
  have item : ∀ engine : Engine,
      Results ((interpreter fuel).run .nextItem) engine fun item after =>
        item = none → after.input = .empty := by
    intro engine
    cases fuel with
    | zero => exact results_fail
    | succ fuel => exact results_nextItemWithin_none fuel
  induction steps generalizing engine with
  | zero => exact results_fail
  | succ steps ih =>
      unfold digestRootWithin
      refine (item engine).bind ?_
      intro found after empty
      rcases found with _ | character | id
      · exact results_pure (empty rfl)
      · dsimp only
        split
        · exact results_behind fun _ _ => ih
        · exact ih
      · refine results_behind fun node last => ?_
        dsimp only
        split
        · exact results_behind fun _ _ => results_behind fun _ _ => ih
        · exact ih

/-! ## Behind a source -/

theorem Sane.clean_abandon (sane : engine.Sane) : engine.abandon.Clean where
  frames := rfl
  bottom := sane.scopes.owner
  input := rfl
  mathStack := rfl
  buffer := rfl
  environments := rfl
  listDepth := rfl
  expansions := rfl
  globalNext := rfl
  protectedNext := rfl
  current := rfl
  document := rfl

theorem Sane.clean_complete (sane : engine.Sane) (empty : engine.input = .empty) :
    engine.complete.2.Clean where
  frames := rfl
  bottom := sane.scopes.owner
  input := empty
  mathStack := rfl
  buffer := rfl
  environments := rfl
  listDepth := rfl
  expansions := rfl
  globalNext := rfl
  protectedNext := rfl
  current := rfl
  document := rfl

/-- Wherever the interpretation of a source comes to an end, the engine is sane. -/
theorem sane_digestRootWithin (fuel steps : Nat) (idle : engine.Idle) :
    (left (digestRootWithin (interpreter fuel) steps engine)).Sane := by
  have sat := sat_digestRootWithin (builds_interpreter fuel) steps idle.digest_root idle.fill
  cases outcome : digestRootWithin (interpreter fuel) steps engine with
  | ok value after => exact (sat.ok outcome).waiting.sane
  | error error after => exact sat.error outcome

theorem clean_interpret (fuel : Nat) (idle : engine.Idle) :
    (left (interpret fuel engine)).Clean := by
  have sane := sane_digestRootWithin fuel (interpreter fuel).limit idle
  unfold interpret digestRoot
  cases outcome : digestRootWithin (interpreter fuel) (interpreter fuel).limit engine with
  | ok value after =>
      rw [outcome] at sane
      exact sane.clean_complete (results_digestRootWithin fuel _ value after outcome)
  | error error after =>
      rw [outcome] at sane
      exact sane.clean_abandon

theorem clean_text (fuel : Nat) (text : String) (idle : engine.Idle) :
    (left (parseTextWithin fuel text engine)).Clean :=
  clean_interpret fuel (idle.withText text)

/-- Every source leaves a clean engine behind, whether it succeeds or not; and until
then, wherever its interpretation is stopped, the stack of frames stands on the
outermost one. -/
theorem Used.ends_clean (used : engine.Used) (fuel : Nat) (text : String) :
    (left (parseTextWithin fuel text engine)).Clean ∧
      ∀ steps,
        (left (digestRootWithin (interpreter fuel) steps
          (engine.withText text))).scopes.Grounded :=
  ⟨clean_text fuel text used.idle, fun steps =>
    (sane_digestRootWithin fuel steps (used.idle.withText text)).scopes.grounded⟩

set_option maxRecDepth 100000 in
/-- One source leaves a group and an environment open, and the next one fails inside of a
formula. -/
theorem ends_clean_failed :
    let opening := left (parseTextWithin 100 "\x7b\\begin\x7ba\x7d"
      (fresh {} default ⟨2021, 3, 4⟩ .empty))
    document? (parseTextWithin 100 "$x\x7d" opening) = none ∧
      (left (parseTextWithin 100 "$x\x7d" opening)).Clean ∧
      ∀ steps, (left (digestRootWithin (interpreter 100) steps
        (opening.withText "$x\x7d"))).scopes.Grounded := by
  have start : (fresh {} default ⟨2021, 3, 4⟩ .empty).Used := .fresh _ _ _
  rw [fresh, Builtin.scopes_eq] at start ⊢
  intro opening
  have used : opening.Used := .text start 100 _
  have fails : (document? (parseTextWithin 100 "$x\x7d" opening)).isNone = true := by
    decide +kernel
  exact ⟨Option.isNone_iff_eq_none.mp fails, used.ends_clean 100 "$x\x7d"⟩

end Engine

end TexTree
