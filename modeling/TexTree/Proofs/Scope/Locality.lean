import Mathlib.Data.List.Forall2
import Mathlib.Data.List.Infix
import TexTree.Proofs.Input.Tables
import TexTree.Scope

/-!
# Groups restore what they found

Inside of a group scopes are opened and closed, and names and characters get other
meanings.  A local assignment changes a frame that is gone when the group has been
closed; a global one changes every frame, those around the group included.  So what
lies outside of a group is changed by global assignments only, and when the group is
closed it is all that is left (`group_restores`).

The frames outside of the group are themselves scopes.  One operation leaves them as
they are, or makes the same global assignment in them as in the whole stack
(`Around.apply`); a sequence of operations makes them take the last global assignment
to each name and to each character (`Around.run`).
-/

namespace TexTree

/-- What a name can mean. -/
inductive Meaning where
  | command (value : Command)
  /-- The name is an alias of a character. -/
  | character (token : Token)

namespace Meaning

/-- The command, if the meaning is one. -/
def command? : Meaning → Option Command
  | .command value => some value
  | .character _ => none

/-- The character, if the meaning is one. -/
def alias? : Meaning → Option Token
  | .command _ => none
  | .character token => some token

end Meaning

namespace Frame

/-- Bind a name to a meaning. -/
def give (frame : Frame) (name : String) : Meaning → Frame
  | .command value => frame.bind name value
  | .character token => frame.bindAlias name token

/-- Two frames know the same about a name. -/
def AgreeOn (name : String) (left right : Frame) : Prop :=
  left.commands.get? name = right.commands.get? name ∧
    left.aliases.get? name = right.aliases.get? name

theorem agreeOn_forget {name other : String} (different : name ≠ other) (frame : Frame) :
    AgreeOn other (frame.forget name) frame := by
  simp [AgreeOn, forget, Table.get?_erase, different]

theorem agreeOn_give {name other : String} (different : name ≠ other) (frame : Frame)
    (meaning : Meaning) : AgreeOn other (frame.give name meaning) frame := by
  cases meaning <;>
    simp [AgreeOn, give, bind, bindAlias, Table.get?_erase, Table.get?_insert, different]

end Frame

namespace Scopes

/-! ## Looking up names -/

theorem commandIn_congr {name : String} {left right : List Frame}
    (agree : List.Forall₂ (Frame.AgreeOn name) left right) :
    commandIn name left = commandIn name right := by
  induction agree with
  | nil => rfl
  | cons same _ ih =>
      rw [commandIn, commandIn, Table.contains, Table.contains, same.1, same.2, ih]

theorem aliasIn_congr {name : String} {left right : List Frame}
    (agree : List.Forall₂ (Frame.AgreeOn name) left right) :
    aliasIn name left = aliasIn name right := by
  induction agree with
  | nil => rfl
  | cons same _ ih =>
      rw [aliasIn, aliasIn, Table.contains, Table.contains, same.1, same.2, ih]

/-- Frames that have forgotten a name are passed over when it is looked up. -/
theorem commandIn_map_forget (name : String) (frames rest : List Frame) :
    commandIn name (frames.map (·.forget name) ++ rest) = commandIn name rest := by
  induction frames with
  | nil => rfl
  | cons frame frames ih =>
      simpa [commandIn, Frame.forget, Table.contains, Table.get?_erase] using ih

theorem aliasIn_map_forget (name : String) (frames rest : List Frame) :
    aliasIn name (frames.map (·.forget name) ++ rest) = aliasIn name rest := by
  induction frames with
  | nil => rfl
  | cons frame frames ih =>
      simpa [aliasIn, Frame.forget, Table.contains, Table.get?_erase] using ih

/-! ## Assignments -/

/-- What a token means at this moment. -/
def meaningNow (scopes : Scopes) (source : Token) : Meaning :=
  if source.isControl then
    match scopes.alias? source.text with
    | some token => .character (token.at? none)
    | none => .command ((scopes.command? source.text).getD (.unrecognized source.text))
  else .character (source.at? none)

/-- Give a name a meaning in the innermost scope, or globally. -/
def give (scopes : Scopes) (name : String) (meaning : Meaning) (isGlobal : Bool) : Scopes :=
  match meaning with
  | .command value => scopes.setCommand name value isGlobal
  | .character token => scopes.setAlias name token isGlobal

theorem letToken_eq_give (scopes : Scopes) (name : String) (source : Token) (isGlobal : Bool) :
    scopes.letToken name source isGlobal =
      scopes.give name (scopes.meaningNow source) isGlobal := by
  unfold letToken meaningNow
  cases source.isControl with
  | false => rfl
  | true => cases scopes.alias? source.text <;> rfl

theorem give_local (scopes : Scopes) (name : String) (meaning : Meaning) :
    scopes.give name meaning false = scopes.modifyTop (·.give name meaning) := by
  cases meaning <;> rfl

theorem give_global (scopes : Scopes) (name : String) (meaning : Meaning) :
    scopes.give name meaning true =
      ⟨scopes.inner.map (·.forget name), scopes.base.give name meaning⟩ := by
  cases meaning <;> rfl

theorem command?_give_global (scopes : Scopes) (name other : String) (meaning : Meaning) :
    (scopes.give name meaning true).command? other =
      if name = other then meaning.command? else scopes.command? other := by
  rw [give_global]
  simp only [command?, frames]
  by_cases same : name = other
  · subst same
    rw [commandIn_map_forget, if_pos rfl]
    cases meaning <;>
      simp [commandIn, Frame.give, Frame.bind, Frame.bindAlias, Table.contains,
        Table.get?_erase, Meaning.command?]
  · rw [if_neg same]
    apply commandIn_congr
    refine List.rel_append ?_ (.cons (Frame.agreeOn_give same _ _) .nil)
    exact List.forall₂_map_left_iff.mpr
      (List.forall₂_same.mpr fun frame _ => Frame.agreeOn_forget same frame)

theorem alias?_give_global (scopes : Scopes) (name other : String) (meaning : Meaning) :
    (scopes.give name meaning true).alias? other =
      if name = other then meaning.alias? else scopes.alias? other := by
  rw [give_global]
  simp only [alias?, frames]
  by_cases same : name = other
  · subst same
    rw [aliasIn_map_forget, if_pos rfl]
    cases meaning <;>
      simp [aliasIn, Frame.give, Frame.bind, Frame.bindAlias, Table.contains,
        Table.get?_erase, Meaning.alias?]
  · rw [if_neg same]
    apply aliasIn_congr
    refine List.rel_append ?_ (.cons (Frame.agreeOn_give same _ _) .nil)
    exact List.forall₂_map_left_iff.mpr
      (List.forall₂_same.mpr fun frame _ => Frame.agreeOn_forget same frame)

theorem categories_give_global (scopes : Scopes) (name : String) (meaning : Meaning) :
    (scopes.give name meaning true).categories = scopes.categories := by
  rw [give_global]
  unfold categories top
  cases scopes.inner with
  | nil => cases meaning <;> rfl
  | cons frame rest => rfl

theorem categories_categorize_global (scopes : Scopes) (character : Char)
    (category : Category) :
    (scopes.categorize character category true).categories =
      scopes.categories.assign character category := by
  unfold categorize categories top
  cases scopes.inner <;> rfl

/-- Giving characters categories does not change what names mean. -/
theorem forall₂_categorize_global (scopes : Scopes) (character : Char) (category : Category)
    (name : String) :
    List.Forall₂ (Frame.AgreeOn name) (scopes.categorize character category true).frames
      scopes.frames := by
  refine List.rel_append ?_ (.cons ⟨rfl, rfl⟩ .nil)
  exact List.forall₂_map_left_iff.mpr (List.forall₂_same.mpr fun _ _ => ⟨rfl, rfl⟩)

/-! ## Operations -/

/-- The ways to change a stack of scopes from inside of a group. -/
inductive Operation where
  /-- Open a scope, which is not the one of the document. -/
  | push (owner : Option FrameOwner) (locals : List (String × Command))
      (isInner : ∀ opener ∈ owner, opener.level ≠ Level.document)
  | pop
  | setCommand (name : String) (command : Command) (isGlobal : Bool)
  | letToken (name : String) (source : Token) (isGlobal : Bool)
  | categorize (character : Char) (category : Category) (isGlobal : Bool)
  | setCategories (categories : CategoryTable)

namespace Operation

/-- Perform an operation. -/
def apply (scopes : Scopes) : Operation → Scopes
  | .push owner locals _ => scopes.push owner locals
  | .pop => scopes.pop
  | .setCommand name command isGlobal => scopes.setCommand name command isGlobal
  | .letToken name source isGlobal => scopes.letToken name source isGlobal
  | .categorize character category isGlobal => scopes.categorize character category isGlobal
  | .setCategories categories => scopes.setCategories categories

/-- The meaning that an operation gives to a name globally. -/
def globalMeaning? (scopes : Scopes) (name : String) : Operation → Option Meaning
  | .setCommand target command true => if target = name then some (.command command) else none
  | .letToken target source true => if target = name then some (scopes.meaningNow source) else none
  | _ => none

/-- The category that an operation gives to a character globally. -/
def globalCategory? (character : Char) : Operation → Option Category
  | .categorize target category true =>
      if target = character then some category.ofCharacter else none
  | _ => none

end Operation

/-- Perform operations one after the other. -/
def run (scopes : Scopes) (operations : List Operation) : Scopes :=
  operations.foldl Operation.apply scopes

/-- The meaning that a name was given globally by the last of several operations that
did so. -/
def lastMeaning? (name : String) : Scopes → List Operation → Option Meaning
  | _, [] => none
  | scopes, operation :: rest =>
      lastMeaning? name (operation.apply scopes) rest <|>
        operation.globalMeaning? scopes name

/-- The category that a character was given globally by the last of several operations
that did so. -/
def lastCategory? (character : Char) : List Operation → Option Category
  | [] => none
  | operation :: rest =>
      lastCategory? character rest <|> operation.globalCategory? character

/-! ## Outside of a group -/

/-- Scopes have been changed by global assignments of the given meanings and categories. -/
structure Reassigned (before after : Scopes) (meaning? : String → Option Meaning)
    (category? : Char → Option Category) : Prop where
  depth : after.depth = before.depth
  command? : ∀ name, after.command? name =
    (meaning? name).elim (before.command? name) Meaning.command?
  alias? : ∀ name, after.alias? name = (meaning? name).elim (before.alias? name) Meaning.alias?
  category : ∀ character, after.categories.category character =
    (category? character).getD (before.categories.category character)

namespace Reassigned

variable {before middle after : Scopes} {meaning? later? : String → Option Meaning}
  {category? laterCategory? : Char → Option Category}

theorem refl (scopes : Scopes) : Reassigned scopes scopes (fun _ => none) (fun _ => none) :=
  ⟨rfl, fun _ => rfl, fun _ => rfl, fun _ => rfl⟩

/-- Later assignments take precedence. -/
theorem trans (first : Reassigned before middle meaning? category?)
    (second : Reassigned middle after later? laterCategory?) :
    Reassigned before after (fun name => later? name <|> meaning? name)
      (fun character => laterCategory? character <|> category? character) where
  depth := second.depth.trans first.depth
  command? name := by
    rw [second.command?, first.command?]
    cases later? name <;> simp
  alias? name := by
    rw [second.alias?, first.alias?]
    cases later? name <;> simp
  category character := by
    rw [second.category, first.category]
    cases laterCategory? character <;> simp

theorem give (scopes : Scopes) (name : String) (meaning : Meaning) :
    Reassigned scopes (scopes.give name meaning true)
      (fun other => if name = other then some meaning else none) (fun _ => none) where
  depth := by simp [give_global, Scopes.depth]
  command? other := by
    rw [command?_give_global]
    split <;> rfl
  alias? other := by
    rw [alias?_give_global]
    split <;> rfl
  category character := by simp [categories_give_global]

theorem categorize (scopes : Scopes) (character : Char) (category : Category) :
    Reassigned scopes (scopes.categorize character category true) (fun _ => none)
      (fun other => if character = other then some category.ofCharacter else none) where
  depth := by simp [Scopes.categorize, Scopes.depth]
  command? name := commandIn_congr (scopes.forall₂_categorize_global character category name)
  alias? name := aliasIn_congr (scopes.forall₂_categorize_global character category name)
  category other := by
    rw [categories_categorize_global, CategoryTable.category_assign]
    split <;> rfl

end Reassigned

/-- The stack consists of the frames outside of a group, the group, and what was opened
in it. -/
def Around (outside scopes : Scopes) : Prop :=
  ∃ above group, group.isGroup = true ∧ scopes.inner = above ++ group :: outside.inner ∧
    scopes.base = outside.base

namespace Around

variable {outside scopes : Scopes}

theorem depth_lt (around : Around outside scopes) : outside.depth < scopes.depth := by
  obtain ⟨above, group, _, inner, _⟩ := around
  simp only [depth, inner, List.length_append, List.length_cons]
  omega

theorem open_group (scopes : Scopes) : Around scopes (scopes.push none []) :=
  ⟨[], _, rfl, rfl, rfl⟩

/-- Changing the innermost frame changes nothing outside of the group. -/
theorem modifyTop (around : Around outside scopes) {change : Frame → Frame}
    (keepsGroups : ∀ frame, (change frame).isGroup = frame.isGroup) :
    Around outside (scopes.modifyTop change) := by
  obtain ⟨above, group, isGroup, inner, base⟩ := around
  unfold Scopes.modifyTop
  cases above with
  | nil =>
      rw [List.nil_append] at inner
      simp only [inner]
      exact ⟨[], change group, (keepsGroups group).trans isGroup, rfl, base⟩
  | cons frame above =>
      rw [List.cons_append] at inner
      simp only [inner]
      exact ⟨change frame :: above, group, isGroup, rfl, base⟩

/-- A change of all frames changes those outside of the group in the same way. -/
theorem map (around : Around outside scopes) (change baseChange : Frame → Frame)
    (keepsGroups : ∀ frame, (change frame).isGroup = frame.isGroup) :
    Around ⟨outside.inner.map change, baseChange outside.base⟩
      ⟨scopes.inner.map change, baseChange scopes.base⟩ := by
  obtain ⟨above, group, isGroup, inner, base⟩ := around
  refine ⟨above.map change, change group, (keepsGroups group).trans isGroup, ?_, ?_⟩
  · simp [inner]
  · rw [base]

theorem give_global (around : Around outside scopes) (name : String) (meaning : Meaning) :
    Around (outside.give name meaning true) (scopes.give name meaning true) := by
  rw [Scopes.give_global, Scopes.give_global]
  exact around.map (·.forget name) (·.give name meaning) fun _ => rfl

theorem give_local (around : Around outside scopes) (name : String) (meaning : Meaning) :
    Around outside (scopes.give name meaning false) := by
  rw [Scopes.give_local]
  exact around.modifyTop fun _ => by cases meaning <;> rfl

theorem push (around : Around outside scopes) {owner : Option FrameOwner}
    (locals : List (String × Command))
    (isInner : ∀ opener ∈ owner, opener.level ≠ Level.document) :
    Around outside (scopes.push owner locals) := by
  obtain ⟨above, group, isGroup, inner, base⟩ := around
  have stays : (owner.any fun opener => opener.level == Level.document) = false := by
    cases owner with
    | none => rfl
    | some opener => simpa using isInner opener rfl
  simp only [Scopes.push, stays, Bool.false_eq_true, if_false]
  exact ⟨_ :: above, group, isGroup, congrArg (List.cons _) inner, base⟩

/-- Closing a group closes the one that was looked at, and leaves what is outside of it,
or one that was opened in it. -/
theorem pop (around : Around outside scopes) :
    scopes.pop = outside ∨ Around outside scopes.pop := by
  obtain ⟨above, group, isGroup, inner, base⟩ := around
  unfold Scopes.pop
  rw [inner, List.dropWhile_append]
  split
  · left
    simp [isGroup, base]
  · next notEmpty =>
      -- A group that was opened inside is the first one that is met.
      right
      cases dropped : above.dropWhile fun frame => !frame.isGroup with
      | nil => simp [dropped] at notEmpty
      | cons frame rest => exact ⟨rest, group, isGroup, rfl, base⟩

/-- One operation that does not close the group makes at most one global assignment
outside of it. -/
theorem apply (around : Around outside scopes) (operation : Operation)
    (stays : outside.depth < (operation.apply scopes).depth) :
    ∃ outside', Around outside' (operation.apply scopes) ∧
      Reassigned outside outside' (operation.globalMeaning? scopes)
        (fun character => operation.globalCategory? character) := by
  cases operation with
  | push owner locals isInner => exact ⟨outside, around.push locals isInner, .refl outside⟩
  | pop =>
      rcases around.pop with closed | around
      · simp [Operation.apply, closed] at stays
      · exact ⟨outside, around, .refl outside⟩
  | setCommand name command isGlobal =>
      cases isGlobal with
      | false => exact ⟨outside, around.give_local name (.command command), .refl outside⟩
      | true =>
          exact ⟨_, around.give_global name (.command command),
            .give outside name (.command command)⟩
  | letToken name source isGlobal =>
      simp only [Operation.apply, letToken_eq_give]
      cases isGlobal with
      | false => exact ⟨outside, around.give_local name _, .refl outside⟩
      | true => exact ⟨_, around.give_global name _, .give outside name _⟩
  | categorize character category isGlobal =>
      cases isGlobal with
      | false => exact ⟨outside, around.modifyTop fun _ => rfl, .refl outside⟩
      | true =>
          exact ⟨outside.categorize character category true,
            around.map (·.categorize character category) (·.categorize character category)
              fun _ => rfl,
            .categorize outside character category⟩
  | setCategories categories =>
      exact ⟨outside, around.modifyTop fun _ => rfl, .refl outside⟩

/-- Operations that do not close the group make the last global assignments outside of
it. -/
theorem run (around : Around outside scopes) (operations : List Operation)
    (stays : ∀ start, start <+: operations → outside.depth < (scopes.run start).depth) :
    ∃ outside', Around outside' (scopes.run operations) ∧
      Reassigned outside outside' (fun name => lastMeaning? name scopes operations)
        (fun character => lastCategory? character operations) := by
  induction operations generalizing outside scopes with
  | nil => exact ⟨outside, around, .refl outside⟩
  | cons operation rest ih =>
      have first : outside.depth < (operation.apply scopes).depth :=
        stays [operation] (by simp)
      obtain ⟨middle, aroundMiddle, changed⟩ := around.apply operation first
      have staysLater : ∀ start, start <+: rest →
          middle.depth < ((operation.apply scopes).run start).depth := by
        intro start isStart
        rw [changed.depth]
        exact stays (operation :: start) (by simpa using isStart)
      obtain ⟨final, aroundFinal, changedLater⟩ := ih aroundMiddle staysLater
      exact ⟨final, aroundFinal, changed.trans changedLater⟩

end Around

/-- When a group has been closed, there are as many scopes as before it.  Names and
characters have the meanings and categories of the last global assignments to them in
the group; those without one are as they were before. -/
theorem group_restores (scopes : Scopes) (operations : List Operation)
    (stays : ∀ start, start <+: operations →
      scopes.depth < ((scopes.push none []).run start).depth)
    (closes : ((scopes.push none []).run operations).pop.depth ≤ scopes.depth) :
    let opened := scopes.push none []
    let after := (opened.run operations).pop
    after.depth = scopes.depth ∧
      (∀ name, lastMeaning? name opened operations = none →
        after.command? name = scopes.command? name ∧ after.alias? name = scopes.alias? name) ∧
      (∀ name meaning, lastMeaning? name opened operations = some meaning →
        after.command? name = meaning.command? ∧ after.alias? name = meaning.alias?) ∧
      ∀ character, after.categories.category character =
        (lastCategory? character operations).getD
          (scopes.categories.category character) := by
  intro opened after
  obtain ⟨outside, around, changed⟩ := (Around.open_group scopes).run operations stays
  have left : after = outside := by
    rcases around.pop with closed | stillOpen
    · exact closed
    · have deep := stillOpen.depth_lt
      rw [changed.depth] at deep
      exact absurd closes (Nat.not_le.mpr deep)
  rw [left]
  refine ⟨changed.depth, ?_, ?_, changed.category⟩
  · intro name unassigned
    have commandIs := changed.command? name
    have aliasIs := changed.alias? name
    rw [unassigned] at commandIs aliasIs
    exact ⟨commandIs, aliasIs⟩
  · intro name meaning assigned
    have commandIs := changed.command? name
    have aliasIs := changed.alias? name
    rw [assigned] at commandIs aliasIs
    exact ⟨commandIs, aliasIs⟩

/-- The inner group has its own meaning of a name and gives another one globally, which
is there when both groups have been closed; the local assignments are gone. -/
theorem group_restores_nested :
    let scopes := Scopes.initial.setCommand "a" (.character 'x') false
    let operations : List Operation :=
      [.setCommand "a" (.character 'y') false, .push none [] (by simp),
        .letToken "b" (.control "a") true, .categorize '@' .other true,
        .categorize '!' .letter false, .pop,
        .push (some { node := none, name := "center" }) [] (by decide)]
    let after := ((scopes.push none []).run operations).pop
    after.depth = 1 ∧ after.command? "a" = some (.character 'x') ∧
      after.command? "b" = some (.character 'y') ∧
      after.categories.category '@' = .other ∧ after.categories.category '!' = .other := by
  intro scopes operations after
  have stays : ∀ start, start <+: operations →
      scopes.depth < ((scopes.push none []).run start).depth := by
    have taken : ∀ count < 8,
        scopes.depth < ((scopes.push none []).run (operations.take count)).depth := by
      decide +kernel
    intro start isStart
    rw [List.prefix_iff_eq_take.mp isStart]
    exact taken start.length (Nat.lt_succ_of_le isStart.length_le)
  have closes : ((scopes.push none []).run operations).pop.depth ≤ scopes.depth := by
    decide +kernel
  have restored := group_restores scopes operations stays closes
  obtain ⟨depth, kept, assigned, category⟩ := restored
  refine ⟨depth, (kept "a" rfl).1, (assigned "b" (.command (.character 'y')) rfl).1, ?_, ?_⟩
  · exact (category '@').trans rfl
  · exact (category '!').trans (by decide +kernel)

end Scopes

end TexTree
