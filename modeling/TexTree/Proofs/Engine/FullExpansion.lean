import TexTree.Proofs.Engine.Items
import TexTree.Proofs.Input.Seal
import TexTree.Proofs.Scope.Relaxing

/-!
# Complete expansion

A list is expanded completely by a loop that reads one token at a time and either keeps it,
or expands it, so that its expansion is read next (`expandFullyWithin_succ`).  Meanings may
change while this goes on, but only for names without one, which `\csname` makes the same as
`\relax`.  So what was kept because it could not be expanded still cannot be expanded in the
end, with one exception: a control sequence that was kept because it had no meaning may have
become the same as `\relax`, and `\relax` may have been redefined as something that is
expanded (`full_expansion_normal`).

Without such a redefinition, expanding the result completely gives it once more.
-/

namespace TexTree

namespace Token

/-- The marker at which complete expansion ends. -/
def endsExpansion (token : Token) : Bool := token.category == .endOfList && token.text == "expand"

/-- A token that was kept from expansion, as the control sequence that it is. -/
def thawed (token : Token) : Token :=
  if token.category = .frozen then .control token.text else token

@[simp] theorem endsExpansion_bare (token : Token) :
    token.bare.endsExpansion = token.endsExpansion := rfl

theorem thawed_bare (token : Token) : token.bare.thawed.bare = token.thawed.bare := by
  unfold thawed
  rw [category_bare]
  split <;> rfl

end Token

namespace Engine

variable {interpreter : Interpreter} {engine middle after : Engine} {before : Scopes}
  {token : Token} {tokens read result : List Token} {fuel steps : Nat} {α β : Type}

/-! ## What succeeds -/

/-- If a sequence of two computations succeeds, so do both of them. -/
theorem ok_of_bind {first : TexM α} {second : α → TexM β} {value : β}
    (run : (first >>= second) engine = .ok value after) :
    ∃ found middle, first engine = .ok found middle ∧ second found middle = .ok value after := by
  simp only [Bind.bind, EStateM.bind] at run
  cases found : first engine with
  | ok value middle =>
      rw [found] at run
      exact ⟨value, middle, rfl, run⟩
  | error error middle =>
      rw [found] at run
      cases run

theorem ok_of_map {change : α → β} {computation : TexM α} {value : β}
    (run : (change <$> computation) engine = .ok value after) :
    ∃ found, computation engine = .ok found after ∧ change found = value := by
  rw [map_eq_pure_bind] at run
  obtain ⟨found, middle, isFound, last⟩ := ok_of_bind run
  cases last
  exact ⟨found, isFound, rfl⟩

/-- What a computation gives, if it succeeds. -/
def value? : EStateM.Result TexError Engine α → Option α
  | .ok value _ => some value
  | .error _ _ => none

theorem eq_ok_of_value? {outcome : EStateM.Result TexError Engine α} {value : α}
    (isValue : value? outcome = some value) : outcome = .ok value (left outcome) := by
  cases outcome with
  | ok found after => exact congrArg (EStateM.Result.ok · after) (Option.some.inj isValue)
  | error error after => cases isValue

/-! ## One token after the other -/

/-- Expand a token that complete expansion has read, or drop it if it is a marker; whether
it is gone.  If not, it is kept. -/
def expandsToken (interpreter : Interpreter) (token : Token) : TexM Bool := do
  match token.category with
  | .endOfList => return true
  | .escape =>
      let scopes := (← get).scopes
      match scopes.alias? token.text, scopes.command? token.text with
      | none, some command =>
          let isGuarded := match command with
            | .definition rule => rule.isProtected
            | _ => false
          if isGuarded then return false else interpreter.run (.expand token command)
      | _, _ => return false
  | _ => return false

theorem expandFullyWithin_succ (interpreter : Interpreter) (steps : Nat) (read : List Token) :
    expandFullyWithin interpreter (steps + 1) read =
      (do
        match ← nextRaw with
        | none => fail .inputEnded
        | some token =>
            if token.endsExpansion then
              clearExpansions
              return read.reverse
            else if ← expandsToken interpreter token then
              expandFullyWithin interpreter steps read
            else expandFullyWithin interpreter steps (token.thawed :: read)) := by
  rw [expandFullyWithin]
  refine bind_congr fun next => ?_
  cases next with
  | none => rfl
  | some token =>
      cases category : token.category <;>
        simp only [Token.endsExpansion, Token.thawed, expandsToken, category]
      case escape =>
        -- What becomes of a control sequence depends on its meaning at this moment.
        simp only [bind_assoc]
        refine bind_congr fun current => ?_
        cases current.scopes.alias? token.text <;> cases current.scopes.command? token.text <;>
          simp
        next command =>
          cases command with
          | definition rule => cases isProtected : rule.isProtected <;> simp [isProtected]
          | _ => simp
      all_goals simp

/-- The tokens that complete expansion reads in at most so many steps, up to the marker. -/
def readFullyWithin (interpreter : Interpreter) : Nat → Engine → List Token
  | 0, _ => []
  | steps + 1, engine =>
      match nextRaw engine with
      | .ok (some token) middle =>
          if token.endsExpansion then []
          else
            match expandsToken interpreter token middle with
            | .ok _ after => token :: readFullyWithin interpreter steps after
            | .error _ _ => [token]
      | _ => []

/-- The tokens that are read when a list is expanded completely. -/
def readFully (interpreter : Interpreter) (tokens : List Token) (engine : Engine) : List Token :=
  readFullyWithin interpreter interpreter.limit
    { engine with input := engine.input.pushTokens (tokens ++ [.endOfList "expand"]) }

/-! ## What is kept -/

/-- A command that is tried and not expanded is none that can be, and nothing changes. -/
theorem unexpandable_of_expand {command : Command}
    (run : (Engine.interpreter fuel).run (.expand token command) engine = .ok false after) :
    command.isExpandable = false ∧ after = engine := by
  cases fuel with
  | zero => cases run
  | succ fuel =>
      change expandCommand (Engine.interpreter fuel) token command engine = _ at run
      unfold expandCommand at run
      split at run
      · next fixed =>
          cases run
          exact ⟨by simpa using fixed, rfl⟩
      · -- What is expanded is reported to be.
        simp only [bind_pure_comp] at run
        obtain ⟨_, counted, -, run⟩ := ok_of_bind run
        split at run
        case h_1 | h_2 | h_3 | h_5 =>
          obtain ⟨_, expanded, -, run⟩ := ok_of_bind run
          obtain ⟨_, -, answer⟩ := ok_of_map run
          cases answer
        case h_4 =>
          obtain ⟨_, -, answer⟩ := ok_of_map run
          cases answer
        case h_6 => cases run

/-- What is kept is no marker, and a control sequence that is kept is normal; nothing changes. -/
theorem normal_of_expandsToken
    (run : expandsToken (Engine.interpreter fuel) token engine = .ok false after) :
    after = engine ∧ token.category ≠ .endOfList ∧
      (token.isControl = true → engine.scopes.Normal token.text) := by
  unfold expandsToken at run
  cases category : token.category
  case endOfList =>
    rw [category] at run
    cases run
  case escape =>
    simp only [category, Bind.bind, EStateM.bind, get_run] at run
    suffices kept : after = engine ∧ engine.scopes.Normal token.text from
      ⟨kept.1, by simp, fun _ => kept.2⟩
    cases isAlias : engine.scopes.alias? token.text with
    | some target =>
        simp only [isAlias] at run
        cases run
        exact ⟨rfl, .character isAlias⟩
    | none =>
        cases bound : engine.scopes.command? token.text with
        | none =>
            simp only [isAlias, bound] at run
            cases run
            exact ⟨rfl, .undefined bound⟩
        | some command =>
            simp only [isAlias, bound] at run
            have tried : (Engine.interpreter fuel).run (.expand token command) engine =
                .ok false after → after = engine ∧ engine.scopes.Normal token.text := by
              intro run
              obtain ⟨fixed, unchanged⟩ := unexpandable_of_expand run
              exact ⟨unchanged, .command bound (.unexpandable fixed)⟩
            cases command with
            | definition rule =>
                cases isProtected : rule.isProtected with
                | true =>
                    simp only [isProtected, if_true] at run
                    cases run
                    exact ⟨rfl, .command bound (.guarded isProtected)⟩
                | false =>
                    simp only [isProtected, Bool.false_eq_true, if_false] at run
                    exact tried run
            | _ => exact tried run
  all_goals
    rw [category] at run
    cases run
    exact ⟨rfl, by simp, fun isControl => by simp [Token.isControl, category] at isControl⟩

/-- Neither keeping nor expanding a token gives meanings but that of `\relax`. -/
theorem relaxing_expandsToken (fuel : Nat) (token : Token) (engine : Engine) :
    engine.scopes.Relaxing
      (left (expandsToken (Engine.interpreter fuel) token engine)).scopes := by
  have reads := retains_interpreter (engine.scopes.Relaxing ·.scopes) fuel
  have retains : Retains (engine.scopes.Relaxing ·.scopes)
      (expandsToken (Engine.interpreter fuel) token) := by
    unfold expandsToken
    split <;> grind
  exact retains engine (.refl _)

/-- A control sequence that is normal is kept, and so is every token that is no control
sequence; nothing changes. -/
theorem runs_expandsToken (idles : Idles interpreter) (notMarker : token.category ≠ .endOfList)
    (normal : token.isControl = true → engine.scopes.Normal token.text) :
    Runs (expandsToken interpreter token) engine fun gone after =>
      gone = false ∧ after = engine := by
  suffices isKept : expandsToken interpreter token engine = .ok false engine from
    ⟨_, _, isKept, rfl, rfl⟩
  unfold expandsToken
  cases category : token.category
  case endOfList => exact absurd category notMarker
  case escape =>
    simp only [Bind.bind, EStateM.bind, get_run]
    cases isAlias : engine.scopes.alias? token.text with
    | some target => rfl
    | none =>
        cases normal (by simp [Token.isControl, category]) with
        | undefined unbound => simp only [unbound]; rfl
        | character isAlias' => rw [isAlias] at isAlias'; cases isAlias'
        | @command command bound stays =>
            simp only [bound]
            cases stays with
            | guarded isProtected => simp only [isProtected, if_true]; rfl
            | unexpandable fixed =>
                cases command with
                | definition rule => cases fixed
                | _ => exact idles token _ engine fixed
  all_goals rfl

/-! ## Whole lists -/

/-- A token that complete expansion keeps: it is no marker, and if it is a control sequence,
its name is as stated. -/
structure Kept (isSettled : String → Prop) (token : Token) : Prop where
  notMarker : token.category ≠ .endOfList
  notFrozen : token.category ≠ .frozen
  settled : token.isControl = true → isSettled token.text

theorem Kept.mono {isSettled isSettled' : String → Prop} (kept : Kept isSettled token)
    (weaken : ∀ name, isSettled name → isSettled' name) : Kept isSettled' token :=
  ⟨kept.notMarker, kept.notFrozen, fun isControl => weaken _ (kept.settled isControl)⟩

/-- Reading a token changes only the input. -/
theorem scopes_nextRaw {next : Option Token} (isNext : nextRaw engine = .ok next middle) :
    middle.scopes = engine.scopes := by
  cases isNext
  rfl

/-- All that complete expansion keeps is settled in the end, and each step keeps at most one
token. -/
theorem kept_of_expandFullyWithin
    (run : expandFullyWithin (Engine.interpreter fuel) steps read engine = .ok result after)
    (unfrozen : ∀ token ∈ readFullyWithin (Engine.interpreter fuel) steps engine,
      token.category ≠ .frozen)
    (earlier : before.Relaxing engine.scopes)
    (kept : ∀ token ∈ read, Kept (before.Settled engine.scopes) token) :
    (∀ token ∈ result, Kept (before.Settled after.scopes) token) ∧
      result.length < read.length + steps := by
  induction steps generalizing engine read with
  | zero => cases run
  | succ steps ih =>
      rw [expandFullyWithin_succ] at run
      obtain ⟨next, middle, isNext, run⟩ := ok_of_bind run
      rw [← scopes_nextRaw isNext] at earlier kept
      cases next with
      | none => cases run
      | some token =>
          rw [readFullyWithin, isNext] at unfrozen
          cases ends : token.endsExpansion with
          | true =>
              simp only [ends, if_true] at run
              cases run
              refine ⟨fun token member => kept token (List.mem_reverse.mp member), ?_⟩
              rw [List.length_reverse]
              omega
          | false =>
              simp only [ends, Bool.false_eq_true, if_false] at run unfrozen
              obtain ⟨gone, later, expanded, rest⟩ := ok_of_bind run
              have relaxing := relaxing_expandsToken fuel token middle
              rw [expanded] at relaxing unfrozen
              rw [List.forall_mem_cons] at unfrozen
              have stillKept : ∀ other ∈ read, Kept (before.Settled later.scopes) other :=
                fun other member =>
                  (kept other member).mono fun _ settled => settled.mono earlier relaxing
              cases gone with
              | true =>
                  obtain ⟨all, short⟩ := ih rest unfrozen.2 (earlier.trans relaxing) stillKept
                  exact ⟨all, by omega⟩
              | false =>
                  obtain ⟨rfl, notMarker, normal⟩ := normal_of_expandsToken expanded
                  have isKept : Kept (before.Settled later.scopes) token :=
                    ⟨notMarker, unfrozen.1, fun isControl => .inl (normal isControl)⟩
                  simp only [Token.thawed, unfrozen.1, if_false] at rest
                  obtain ⟨all, short⟩ := ih rest unfrozen.2 (earlier.trans relaxing)
                    (List.forall_mem_cons.mpr ⟨isKept, stillKept⟩)
                  exact ⟨all, by rw [List.length_cons] at short; omega⟩

/-- The first token of a list on top of the input is read first. -/
theorem runs_nextRaw_under {below : Input}
    (isUnder : engine.input = below.under (token :: tokens)) :
    Runs nextRaw engine fun next after =>
      next = some token ∧ after = { engine with input := below.under tokens } := by
  refine runs_modifyGet ?_
  dsimp only
  rw [isUnder, Input.next_under]
  exact ⟨rfl, rfl⟩

/-- A list of tokens each of which is kept is given back by complete expansion. -/
theorem runs_expandFullyWithin_kept (idles : Idles interpreter) {below : Input}
    (kept : ∀ token ∈ tokens, Kept engine.scopes.Normal token) (enough : tokens.length < steps)
    (isUnder : engine.input = below.under (tokens ++ [.endOfList "expand"])) :
    Runs (expandFullyWithin interpreter steps read) engine fun result _ =>
      result = read.reverse ++ tokens := by
  induction tokens generalizing engine steps read with
  | nil =>
      obtain ⟨steps, rfl⟩ := Nat.exists_eq_succ_of_ne_zero (Nat.ne_of_gt enough)
      rw [expandFullyWithin_succ]
      refine (runs_nextRaw_under isUnder).bind ?_
      rintro _ _ ⟨rfl, rfl⟩
      exact runs_modify_bind (runs_pure (List.append_nil _).symm)
  | cons first tokens ih =>
      obtain ⟨steps, rfl⟩ := Nat.exists_eq_succ_of_ne_zero (Nat.ne_of_gt (Nat.zero_lt_of_lt enough))
      rw [List.forall_mem_cons] at kept
      obtain ⟨⟨notMarker, notFrozen, normal⟩, kept⟩ := kept
      have goesOn : first.endsExpansion = false := by simp [Token.endsExpansion, notMarker]
      rw [expandFullyWithin_succ]
      refine (runs_nextRaw_under isUnder).bind ?_
      rintro _ after ⟨rfl, isRead⟩
      have same : after.scopes = engine.scopes := by rw [isRead]
      rw [← same] at kept normal
      simp only [goesOn, Bool.false_eq_true, if_false, Token.thawed, notFrozen]
      refine (runs_expandsToken idles notMarker normal).bind ?_
      rintro _ last ⟨rfl, rfl⟩
      have stillUnder : last.input = below.under (tokens ++ [.endOfList "expand"]) :=
        congrArg Engine.input isRead
      refine (ih kept (Nat.lt_of_succ_lt_succ enough) stillUnder).mono ?_
      rintro _ _ rfl
      simp

/-- The result of complete expansion is in normal form: each control sequence in it has no
meaning, is an alias of a character, or means a protected definition or a command that cannot
be expanded, unless it had no meaning when the expansion began and now has the one of
`\relax`.  If `\relax` is not expanded itself, there is no exception, and complete expansion
of the result gives it once more.

Tokens that were kept from expansion must not be among those that are read: they become
control sequences whatever these mean. -/
theorem full_expansion_normal (fuel : Nat)
    (run : expandFully (Engine.interpreter fuel) tokens engine = .ok result after)
    (unfrozen : ∀ token ∈ readFully (Engine.interpreter fuel) tokens engine,
      token.category ≠ .frozen) :
    (∀ token ∈ result, token.isControl = true →
      engine.scopes.Settled after.scopes token.text) ∧
    ((∀ relax, engine.scopes.command? "relax" = some relax → relax.Stays) →
      (∀ token ∈ result, token.isControl = true → after.scopes.Normal token.text) ∧
      ∃ again, expandFully (Engine.interpreter fuel) result after = .ok result again) := by
  obtain ⟨_, pushed, pushes, run⟩ := ok_of_bind run
  cases pushes
  obtain ⟨kept, short⟩ := kept_of_expandFullyWithin run unfrozen
    (Scopes.Relaxing.refl engine.scopes) (by simp)
  refine ⟨fun token member => (kept token member).settled, fun stays => ?_⟩
  have normal : ∀ token ∈ result, Kept after.scopes.Normal token :=
    fun token member => (kept token member).mono fun _ settled => settled.normal stays
  refine ⟨fun token member => (normal token member).settled, ?_⟩
  have idles : Idles (Engine.interpreter fuel) := by
    cases fuel with
    | zero => cases run
    | succ fuel => exact idles_interpreter fuel
  have isUnder : after.input.pushTokens (result ++ [.endOfList "expand"]) =
      after.input.under (result ++ [.endOfList "expand"]) := by
    cases result with
    | nil => exact Input.pushTokens_eq_under _ _
    | cons first rest => exact Input.pushTokens_eq_under first _
  obtain ⟨_, again, gives, rfl⟩ : Runs (expandFully (Engine.interpreter fuel) result) after
      fun value _ => value = result :=
    runs_modify_bind (runs_expandFullyWithin_kept idles normal (by simpa using short) isUnder)
  exact ⟨again, gives⟩

/-- A name without a meaning is kept, and `\csname` makes it the same as `\relax` behind it.
This is kept as well, unless `\relax` has been redefined: then the name is expanded where it
stands behind `\csname`, and where it was kept it is expanded the next time. -/
theorem full_expansion_normal_csname :
    let knowing : Command → Engine := fun relax =>
      { (default : Engine) with
        settings := {}
        scopes :=
          ((Scopes.initial.setCommand "csname" (.primitive "csname" (.expansion .namedControl))
            false).setCommand "endcsname" (.primitive "endcsname" (.action .strayNameEnd))
            false).setCommand "relax" relax false }
    let bare := knowing (.primitive "relax" (.action .nothing))
    let redefined := knowing (.definition
      { name := "relax", origin := .parameterText, signature := [], fallback := none,
        body := [.token (.letter 'x')], isProtected := false })
    let expands := expandFully (Engine.interpreter 20)
    let tokens : List Token := [.control "foo", .control "csname", .letter 'f', .letter 'o',
      .letter 'o', .control "endcsname"]
    (∃ after, expands tokens bare = .ok [.control "foo", .control "foo"] after ∧
      after.scopes.Normal "foo" ∧
      ∃ again, expands [.control "foo", .control "foo"] after =
        .ok [.control "foo", .control "foo"] again) ∧
    ∃ after, expands tokens redefined = .ok [.control "foo", .letter 'x'] after ∧
      redefined.scopes.Settled after.scopes "foo" ∧
      ∃ again, expands [.control "foo", .letter 'x'] after =
        .ok [.letter 'x', .letter 'x'] again := by
  intro knowing bare redefined expands tokens
  constructor
  · have run : expands tokens bare =
        .ok [.control "foo", .control "foo"] (left (expands tokens bare)) :=
      eq_ok_of_value? (by decide +kernel)
    have unexpandable : (bare.scopes.command? "relax").all (!·.isExpandable) = true := by
      decide +kernel
    have normal := (full_expansion_normal 20 run (by decide +kernel)).2
    obtain ⟨normal, again⟩ := normal fun relax isRelax =>
      .unexpandable (by simpa [isRelax] using unexpandable)
    exact ⟨_, run, normal (.control "foo") (by simp) rfl, again⟩
  · have run : expands tokens redefined =
        .ok [.control "foo", .letter 'x'] (left (expands tokens redefined)) :=
      eq_ok_of_value? (by decide +kernel)
    have settled := (full_expansion_normal 20 run (by decide +kernel)).1
    have again : expands [.control "foo", .letter 'x'] (left (expands tokens redefined)) =
        .ok [.letter 'x', .letter 'x'] _ := eq_ok_of_value? (by decide +kernel)
    exact ⟨_, run, settled (.control "foo") (by simp) rfl, _, again⟩

end Engine

end TexTree
