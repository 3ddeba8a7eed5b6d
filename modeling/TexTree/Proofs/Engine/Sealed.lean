import TexTree.Proofs.Input.Seal
import TexTree.Session

/-!
# Reading in place of the input

Numbers and dimensions in arguments are read from a token list that lies on top of the
input, with a marker behind it.  The readers stop at the marker and put it back, so
that nothing behind it is touched.  This is not so for everything that may be expanded
while they read: a command that takes the next token as it stands takes the marker, if
the list ends there, and then the rest of the input counts as a part of the list.

Therefore the tokens must be harmless (`Scopes.Shields`): what is expanded is replaced by
harmless tokens, without taking the next token as it stands, and there is no character
constant.  This module has the rules for computations that leave a harmless list complete.
-/

namespace TexTree

/-- Commands that are replaced without looking beyond the token list that they stand
in. -/
def Command.Tame (harmless : Token → Prop) : Command → Prop
  | .definition rule =>
      rule.signature = [] ∧ (∀ token ∈ rule.apply [], harmless token) ∧
        Input.closesBraces (rule.apply []) = true
  | .primitive _ (.expansion (.fixed tokens)) =>
      (∀ token ∈ tokens, harmless token) ∧ Input.closesBraces tokens = true
  | .primitive _ (.expansion .nothing) | .primitive _ (.expansion .counterValue)
  | .primitive _ (.expansion .integer) => True
  | _ => False

/-- Tokens that are harmless in the given scopes: what they are replaced by is harmless
again, and no token behind them is taken as it stands. -/
structure Scopes.Shields (scopes : Scopes) (harmless : Token → Prop) : Prop where
  inside : ∀ token, harmless token → token.category ≠ .endOfList ∧ token.category ≠ .mathShift
  unquoted : ∀ token, harmless token → token.category = .other → token.text ≠ "`"
  characters : ∀ character, character ≠ '`' → harmless (.other character)
  aliases : ∀ token target, harmless token → token.isControl = true →
    scopes.alias? token.text = some target →
    harmless (target.at? token.position) ∧ target.category ≠ .beginGroup
  tame : ∀ token command, harmless token → token.isControl = true →
    scopes.command? token.text = some command → command.isExpandable = true →
    command.Tame harmless

/-- Where token lists are read in place of the input. -/
structure Enclosure where
  harmless : Token → Prop
  scopes : Scopes
  shields : scopes.Shields harmless
  /-- The name of the marker behind the list. -/
  name : String
  /-- The input below the list. -/
  below : Input

namespace Enclosure

/-- The marker behind the list. -/
def marker (enclosure : Enclosure) : Token := .endOfList enclosure.name

/-- Some tokens of the list have been taken from the input, the marker possibly among
them; the rest of the list is still there, on top of what is below. -/
structure Taken (enclosure : Enclosure) (taken : List Token) (engine : Engine) : Prop where
  scopes : engine.scopes = enclosure.scopes
  split : ∃ tokens rest, (∀ token ∈ tokens, enclosure.harmless token) ∧
    Input.closesBraces tokens = true ∧ tokens ++ [enclosure.marker] = taken ++ rest ∧
    engine.input = enclosure.below.under rest

/-- The list is complete, up to the marker. -/
abbrev On (enclosure : Enclosure) (engine : Engine) : Prop := enclosure.Taken [] engine

variable {enclosure : Enclosure} {engine after : Engine} {taken : List Token}

/-- A change that concerns neither the input nor the scopes. -/
theorem Taken.same (isTaken : enclosure.Taken taken engine) (scopes : after.scopes = engine.scopes)
    (input : after.input = engine.input) : enclosure.Taken taken after := by
  obtain ⟨isScopes, tokens, rest, each, closes, whole, isInput⟩ := isTaken
  exact ⟨scopes.trans isScopes, tokens, rest, each, closes, whole, input.trans isInput⟩

/-- What has been taken does not contain the marker, so that the marker is still
there. -/
theorem Taken.rest (isTaken : enclosure.Taken taken engine)
    (notMarker : ∀ token ∈ taken, token.category ≠ .endOfList) :
    ∃ rest, (∀ token ∈ taken ++ rest, enclosure.harmless token) ∧
      Input.closesBraces (taken ++ rest) = true ∧
      engine.input = enclosure.below.under (rest ++ [enclosure.marker]) := by
  obtain ⟨_, tokens, rest, each, closes, whole, isInput⟩ := isTaken
  rcases List.append_eq_append_iff.mp whole with ⟨more, rfl, single⟩ | ⟨more, rfl, rfl⟩
  · -- The marker stands behind all tokens of the list, so it cannot be among the taken.
    cases more with
    | nil =>
        refine ⟨[], by simpa using each, by simpa using closes, ?_⟩
        rw [isInput, List.nil_append, single, List.nil_append]
    | cons token more =>
        have isMarker : token = enclosure.marker := by
          simpa using (List.cons_eq_cons.mp single).1.symm
        exact absurd rfl (notMarker enclosure.marker (by simp [isMarker]))
  · exact ⟨more, each, closes, isInput⟩

/-- Tokens that were taken may be dropped, unless the marker is among them. -/
theorem Taken.drop (isTaken : enclosure.Taken taken engine)
    (notMarker : ∀ token ∈ taken, token.category ≠ .endOfList) : enclosure.On engine := by
  obtain ⟨rest, each, closes, isInput⟩ := isTaken.rest notMarker
  refine ⟨isTaken.scopes, rest, rest ++ [enclosure.marker], ?_, ?_, rfl, isInput⟩
  · exact fun token member => each token (List.mem_append_right taken member)
  · exact Input.closesBraces_of_append closes

/-- Tokens that were taken may be put back, with harmless tokens before them. -/
theorem Taken.push (isTaken : enclosure.Taken taken engine) {tokens : List Token}
    (each : ∀ token ∈ tokens, enclosure.harmless token)
    (closes : Input.closesBraces tokens = true) :
    enclosure.On { engine with input := engine.input.pushTokens (tokens ++ taken) } := by
  obtain ⟨isScopes, list, rest, eachOf, closesList, whole, isInput⟩ := isTaken
  refine ⟨isScopes, tokens ++ list, tokens ++ list ++ [enclosure.marker], ?_, ?_, rfl, ?_⟩
  · intro token member
    rcases List.mem_append.mp member with new | old
    · exact each token new
    · exact eachOf token old
  · exact Input.closesBraces_append closes closesList
  · rw [isInput, Input.pushTokens_under, List.append_assoc, List.append_assoc, whole]

theorem Taken.putBack {token : Token} (isTaken : enclosure.Taken [token] engine) :
    enclosure.On { engine with input := engine.input.putBack token } := by
  have pushed := isTaken.push (List.forall_mem_nil enclosure.harmless) rfl
  exact pushed

/-- There is a next token as long as the list is there. -/
theorem Taken.next (on : enclosure.On engine) (table : CategoryTable) :
    ∃ token input, engine.input.next table = (some token, input) ∧
      enclosure.Taken [token] { engine with input } := by
  obtain ⟨rest, each, closes, isInput⟩ := on.rest (by simp)
  cases rest with
  | nil =>
      refine ⟨enclosure.marker, enclosure.below.under [], ?_, on.scopes, [], [], by simp, rfl, rfl,
        rfl⟩
      rw [isInput]
      exact Input.next_under _ _
  | cons token rest =>
      refine ⟨token, enclosure.below.under (rest ++ [enclosure.marker]), ?_, on.scopes,
        token :: rest, rest ++ [enclosure.marker], each, closes, rfl, rfl⟩
      rw [isInput]
      exact Input.next_under _ _

/-- A single token that was taken is harmless, or it is the marker. -/
theorem Taken.harmless_or {token : Token} (isTaken : enclosure.Taken [token] engine) :
    enclosure.harmless token ∨ token = enclosure.marker := by
  obtain ⟨_, tokens, rest, each, _, whole, _⟩ := isTaken
  cases tokens with
  | nil => exact .inr (List.cons_eq_cons.mp whole).1.symm
  | cons first tokens =>
      rw [← (List.cons_eq_cons.mp whole).1]
      exact .inl (each first List.mem_cons_self)

theorem Taken.harmless {token : Token} (isTaken : enclosure.Taken [token] engine)
    (notMarker : token.category ≠ .endOfList) : enclosure.harmless token := by
  rcases isTaken.harmless_or with isHarmless | isMarker
  · exact isHarmless
  · exact absurd (by rw [isMarker]; rfl) notMarker

theorem Taken.drop_single {token : Token} (isTaken : enclosure.Taken [token] engine)
    (notMarker : token.category ≠ .endOfList) : enclosure.On engine :=
  isTaken.drop (by simpa using notMarker)

/-- When the marker has been taken, the list is used up. -/
theorem Taken.ended {token : Token} (isTaken : enclosure.Taken [token] engine)
    (isMarker : token.category = .endOfList) : engine.input = enclosure.below.lifted := by
  obtain ⟨_, tokens, rest, each, _, whole, isInput⟩ := isTaken
  cases tokens with
  | nil =>
      obtain ⟨_, rfl⟩ := List.cons_eq_cons.mp whole
      rw [isInput, Input.under_nil]
  | cons first tokens =>
      obtain ⟨rfl, _⟩ := List.cons_eq_cons.mp whole
      exact absurd isMarker (enclosure.shields.inside _ (each _ List.mem_cons_self)).1

end Enclosure

namespace Engine

/-- If the computation succeeds, its result is as stated. -/
def Results {α : Type} (computation : TexM α) (engine : Engine) (post : α → Engine → Prop) :
    Prop :=
  ∀ value after, computation engine = .ok value after → post value after

section Results

variable {α β : Type} {engine : Engine}

theorem Results.bind {first : TexM α} {second : α → TexM β} {middle : α → Engine → Prop}
    {post : β → Engine → Prop} (results : Results first engine middle)
    (next : ∀ value after, middle value after → Results (second value) after post) :
    Results (first >>= second) engine post := by
  intro value last equal
  change EStateM.bind first second engine = _ at equal
  unfold EStateM.bind at equal
  cases outcome : first engine with
  | ok found after =>
      rw [outcome] at equal
      exact next found after (results found after outcome) value last equal
  | error error after =>
      rw [outcome] at equal
      cases equal

theorem results_pure {value : α} {post : α → Engine → Prop} (isSo : post value engine) :
    Results (pure value) engine post := by
  intro found after equal
  cases equal
  exact isSo

theorem results_fail {fault : Fault} {post : α → Engine → Prop} :
    Results (fail fault) engine post := by
  intro value after equal
  cases equal

theorem results_get : Results get engine fun known after => known = engine ∧ after = engine := by
  intro found after equal
  cases equal
  exact ⟨rfl, rfl⟩

theorem results_modify {change : Engine → Engine} {post : PUnit → Engine → Prop}
    (isSo : post ⟨⟩ (change engine)) : Results (modify change) engine post := by
  intro found after equal
  cases equal
  exact isSo

theorem results_modifyGet {change : Engine → α × Engine} {post : α → Engine → Prop}
    (isSo : post (change engine).1 (change engine).2) :
    Results (modifyGet change) engine post := by
  intro found after equal
  cases equal
  exact isSo

theorem results_readingOrFail {read : CategoryTable → Input → Except Fault α × Input}
    {post : α → Engine → Prop}
    (isSo : ∀ value input, read engine.scopes.categories engine.input = (.ok value, input) →
      post value { engine with input }) : Results (readingOrFail read) engine post := by
  have wasRead : Results (reading read) engine fun outcome after =>
      ∃ input, read engine.scopes.categories engine.input = (outcome, input) ∧
        after = { engine with input } := results_modifyGet ⟨_, rfl, rfl⟩
  refine wasRead.bind ?_
  rintro outcome after ⟨input, found, rfl⟩
  cases outcome with
  | ok value => exact results_pure (isSo value input found)
  | error fault => exact results_fail

end Results

end Engine

open Engine

/-- An interpreter that expands what stands in the list without leaving it. -/
def Interpreter.Respects (enclosure : Enclosure) (interpreter : Interpreter) : Prop :=
  ∀ (token : Token) (command : Command) (engine : Engine), token.isControl = true →
    enclosure.scopes.command? token.text = some command → enclosure.Taken [token] engine →
    Results (interpreter.run (.expand token command)) engine fun expanded after =>
      if expanded then enclosure.On after else enclosure.Taken [token] after

namespace Engine

variable {enclosure : Enclosure} {interpreter : Interpreter} {engine : Engine}

/-! ## Single tokens -/

theorem category_of_isControl {token : Token} (isControl : token.isControl = true) :
    token.category ≠ .endOfList := by
  have isEscape : token.category = .escape := by simpa [Token.isControl] using isControl
  simp [isEscape]

theorem results_nextRaw (on : enclosure.On engine) :
    Results nextRaw engine fun found after =>
      ∃ token, found = some token ∧ enclosure.Taken [token] after := by
  obtain ⟨token, input, found, isTaken⟩ := on.next engine.scopes.categories
  refine results_modifyGet ?_
  simp only [found]
  exact ⟨token, rfl, isTaken⟩

/-- An alias in the list stands for a harmless character. -/
theorem results_nextToken (on : enclosure.On engine) :
    Results nextToken engine fun found after =>
      ∃ token, found = some token ∧ enclosure.Taken [token] after := by
  refine (results_nextRaw on).bind ?_
  rintro _ after ⟨token, rfl, isTaken⟩
  dsimp only
  split
  · next isControl =>
      refine results_get.bind ?_
      rintro _ _ ⟨rfl, rfl⟩
      split
      · next target found =>
          refine results_pure ⟨_, rfl, ?_⟩
          obtain ⟨rest, each, closes, isInput⟩ :=
            isTaken.rest (by simpa using category_of_isControl isControl)
          rw [isTaken.scopes] at found
          obtain ⟨isHarmless, notOpening⟩ :=
            enclosure.shields.aliases token target (each token (by simp)) isControl found
          refine ⟨isTaken.scopes, target.at? token.position :: rest, rest ++ [enclosure.marker],
            ?_, ?_, by simp, isInput⟩
          · intro other member
            rcases List.mem_cons.mp member with rfl | later
            · exact isHarmless
            · exact each other (List.mem_cons_of_mem token later)
          · have closesRest : Input.closesBraces rest = true :=
              Input.closesBraces_of_append closes
            simp [Input.closesBraces, closesRest, Token.at?, notOpening]
      · exact results_pure ⟨token, rfl, isTaken⟩
  · exact results_pure ⟨token, rfl, isTaken⟩

/-! ## Computations that leave the list complete -/

/-- Whenever the list is complete before the computation and this succeeds, the list is
complete behind it, though it may be another one. -/
def Keeps (enclosure : Enclosure) {α : Type} (computation : TexM α) : Prop :=
  ∀ engine, enclosure.On engine → Results computation engine fun _ after => enclosure.On after

section Keeps

variable {α β : Type} {token : Token}

theorem keeps_pure (value : α) : Keeps enclosure (pure value) :=
  fun _ on => results_pure on

theorem keeps_fail (fault : Fault) : Keeps enclosure (fail fault : TexM α) :=
  fun _ _ => results_fail

theorem keeps_get : Keeps enclosure get := by
  intro engine on
  refine fun known after equal => ?_
  cases equal
  exact on

theorem Keeps.bind {first : TexM α} {second : α → TexM β} (keeps : Keeps enclosure first)
    (next : ∀ value, Keeps enclosure (second value)) : Keeps enclosure (first >>= second) :=
  fun engine on => (keeps engine on).bind fun value => next value

theorem keeps_modify {change : Engine → Engine}
    (scopes : ∀ engine, (change engine).scopes = engine.scopes)
    (input : ∀ engine, (change engine).input = engine.input) : Keeps enclosure (modify change) :=
  fun engine on => results_modify (on.same (scopes engine) (input engine))

theorem keeps_warn (topic message : String) : Keeps enclosure (warn topic message) :=
  keeps_modify (fun _ => rfl) (fun _ => rfl)

theorem results_command? (name : String) :
    Results (command? name) engine fun found after =>
      found = engine.scopes.command? name ∧ after = engine := by
  refine results_get.bind ?_
  rintro _ _ ⟨rfl, rfl⟩
  exact results_pure ⟨rfl, rfl⟩

theorem results_clearExpansions {taken : List Token} (isTaken : enclosure.Taken taken engine) :
    Results clearExpansions engine fun _ after => enclosure.Taken taken after :=
  results_modify (isTaken.same rfl rfl)

/-- The token that was taken is put back. -/
theorem results_putBack (isTaken : enclosure.Taken [token] engine) :
    Results (putBack token) engine fun _ after => enclosure.On after :=
  results_modify isTaken.putBack

/-- A computation behind the token that was taken, which is dropped. -/
theorem Keeps.behind {computation : TexM α} (keeps : Keeps enclosure computation)
    (isTaken : enclosure.Taken [token] engine) (notMarker : token.category ≠ .endOfList) :
    Results computation engine fun _ after => enclosure.On after :=
  keeps engine (isTaken.drop_single notMarker)

/-- The token that was taken is put back or dropped, and then a value is given. -/
theorem results_finish {value : α} (isTaken : enclosure.Taken [token] engine) :
    Results (do putBack token; return value) engine fun _ after => enclosure.On after :=
  (results_putBack isTaken).bind fun _ _ on => results_pure on

end Keeps

/-! ## Expanded tokens -/

theorem results_unexpandableWithin (respects : interpreter.Respects enclosure) (steps : Nat)
    (on : enclosure.On engine) :
    Results (unexpandableWithin interpreter steps) engine fun found after =>
      ∃ token command, found = some (token, command) ∧ enclosure.Taken [token] after ∧
        (command.isSome = true → token.category ≠ .endOfList) := by
  induction steps generalizing engine with
  | zero => exact results_fail
  | succ steps ih =>
      refine (results_nextToken on).bind ?_
      rintro _ after ⟨token, rfl, isTaken⟩
      dsimp only
      split
      · next isControl =>
          refine (results_command? token.text).bind ?_
          rintro _ _ ⟨rfl, rfl⟩
          rw [isTaken.scopes]
          split
          · refine (results_clearExpansions isTaken).bind ?_
            exact fun _ last isTaken => results_pure ⟨token, none, rfl, isTaken, by simp⟩
          · next command found =>
              refine (respects token command _ isControl found isTaken).bind ?_
              intro expanded last outcome
              cases expanded with
              | true => exact ih outcome
              | false =>
                  refine (results_clearExpansions outcome).bind ?_
                  exact fun _ last isTaken => results_pure
                    ⟨token, some command, rfl, isTaken, fun _ => category_of_isControl isControl⟩
      · exact results_pure ⟨token, none, rfl, isTaken, by simp⟩

/-- What follows the next expanded token may take it for the next token of the list or
for the marker, and a control sequence is not the marker. -/
theorem keeps_unexpandable {α : Type} {next : Option (Token × Option Command) → TexM α}
    (respects : interpreter.Respects enclosure)
    (goesOn : ∀ token command engine, enclosure.Taken [token] engine →
      (command.isSome = true → token.category ≠ .endOfList) →
      Results (next (some (token, command))) engine fun _ after => enclosure.On after) :
    Keeps enclosure (unexpandable interpreter >>= next) := by
  intro engine on
  refine (results_unexpandableWithin respects interpreter.limit on).bind ?_
  rintro _ after ⟨token, command, rfl, isTaken, notMarker⟩
  exact goesOn token command after isTaken notMarker

end Engine

end TexTree
