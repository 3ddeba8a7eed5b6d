import TexTree.Proofs.Engine.Expanding
import TexTree.Proofs.Scope.Locality

/-!
# The meanings that expansion gives

Expansion assigns in one place only: `\csname` gives the meaning of `\relax` to a name that
has none.  So behind an expansion every name means the same as before it, unless it had no
meaning and has become the same as `\relax` (`Scopes.Relaxing`).

A control sequence that complete expansion leaves where it stands is normal
(`Scopes.Normal`): it has no meaning, or it stands for a character, or it is a protected
definition or a command that cannot be expanded.  It stays normal when other names are
given a meaning; without one itself, it may become the same as `\relax`, and then it is as
normal as that.
-/

namespace TexTree

/-- A command that complete expansion leaves where it stands: a protected definition, or one
that cannot be expanded. -/
inductive Command.Stays : Command → Prop where
  | guarded {rule : Definition} (isProtected : rule.isProtected = true) : Stays (.definition rule)
  | unexpandable {command : Command} (unexpandable : command.isExpandable = false) : Stays command

namespace Scopes

variable {before now after scopes : Scopes} {name : String}

/-! ## Assignments in the innermost frame -/

/-- An assignment in the innermost frame leaves what the frames know about other names. -/
theorem forall₂_give_local {name other : String} (different : name ≠ other) (scopes : Scopes)
    (meaning : Meaning) :
    List.Forall₂ (Frame.AgreeOn other) (scopes.give name meaning false).frames scopes.frames := by
  have given : ∀ frame : Frame, (frame.give name meaning).AgreeOn other frame :=
    fun frame => Frame.agreeOn_give different frame meaning
  rw [give_local]
  unfold modifyTop frames
  cases scopes.inner with
  | nil => exact .cons (given _) .nil
  | cons frame rest => exact .cons (given frame) (List.forall₂_same.mpr fun _ _ => ⟨rfl, rfl⟩)

theorem command?_give_local (scopes : Scopes) (name other : String) (meaning : Meaning) :
    (scopes.give name meaning false).command? other =
      if name = other then meaning.command? else scopes.command? other := by
  by_cases same : name = other
  · subst same
    rw [give_local, if_pos rfl]
    simp only [modifyTop, command?, frames]
    cases scopes.inner <;> cases meaning <;>
      simp [commandIn, Frame.give, Frame.bind, Frame.bindAlias, Table.contains,
        Table.get?_erase, Meaning.command?]
  · rw [if_neg same]
    exact commandIn_congr (forall₂_give_local same scopes meaning)

theorem alias?_give_local (scopes : Scopes) (name other : String) (meaning : Meaning) :
    (scopes.give name meaning false).alias? other =
      if name = other then meaning.alias? else scopes.alias? other := by
  by_cases same : name = other
  · subst same
    rw [give_local, if_pos rfl]
    simp only [modifyTop, alias?, frames]
    cases scopes.inner <;> cases meaning <;>
      simp [aliasIn, Frame.give, Frame.bind, Frame.bindAlias, Table.contains,
        Table.get?_erase, Meaning.alias?]
  · rw [if_neg same]
    exact aliasIn_congr (forall₂_give_local same scopes meaning)

/-! ## Names that become the same as `\relax` -/

/-- A name had no meaning, and now it has the one of `\relax`. -/
structure BecomesRelax (before after : Scopes) (name : String) : Prop where
  undefined : before.isDefined name = false
  notAlias : after.alias? name = none
  isRelax : ∃ relax, before.command? "relax" = some relax ∧ after.command? name = some relax

/-- A name means the same in both scopes. -/
structure SameMeaning (before after : Scopes) (name : String) : Prop where
  command? : after.command? name = before.command? name
  alias? : after.alias? name = before.alias? name

/-- All names mean the same as before, apart from those that have become the same as
`\relax`. -/
def Relaxing (before after : Scopes) : Prop :=
  ∀ name, before.SameMeaning after name ∨ before.BecomesRelax after name

theorem SameMeaning.isDefined (same : before.SameMeaning after name) :
    after.isDefined name = before.isDefined name := by
  rw [Scopes.isDefined, Scopes.isDefined, same.command?, same.alias?]

theorem Relaxing.refl (scopes : Scopes) : scopes.Relaxing scopes := fun _ => .inl ⟨rfl, rfl⟩

/-- The meaning of `\relax` itself stays. -/
theorem Relaxing.command?_relax (relaxing : before.Relaxing after) :
    after.command? "relax" = before.command? "relax" := by
  rcases relaxing "relax" with same | becomes
  · exact same.command?
  · obtain ⟨relax, bound, isRelax⟩ := becomes.isRelax
    rw [bound, isRelax]

/-- A name that becomes the same as `\relax` later had no meaning from the start. -/
theorem BecomesRelax.of_relaxing (relaxing : before.Relaxing now)
    (becomes : now.BecomesRelax after name) : before.BecomesRelax after name where
  undefined := by
    rcases relaxing name with same | earlier
    · rw [← same.isDefined]
      exact becomes.undefined
    · exact earlier.undefined
  notAlias := becomes.notAlias
  isRelax := by
    rw [← relaxing.command?_relax]
    exact becomes.isRelax

/-- What has become the same as `\relax` stays like this if its meaning stays. -/
theorem BecomesRelax.of_same (becomes : before.BecomesRelax now name)
    (same : now.SameMeaning after name) : before.BecomesRelax after name where
  undefined := becomes.undefined
  notAlias := same.alias?.trans becomes.notAlias
  isRelax := by
    rw [same.command?]
    exact becomes.isRelax

theorem Relaxing.trans (first : before.Relaxing now) (second : now.Relaxing after) :
    before.Relaxing after := by
  intro name
  rcases second name with same | becomes
  · rcases first name with earlier | becomes
    · exact .inl ⟨same.command?.trans earlier.command?, same.alias?.trans earlier.alias?⟩
    · exact .inr (becomes.of_same same)
  · exact .inr (becomes.of_relaxing first)

/-- Giving the meaning of `\relax` to a name without one. -/
theorem relaxing_setCommand {relax : Command} (undefined : scopes.isDefined name = false)
    (bound : scopes.command? "relax" = some relax) :
    scopes.Relaxing (scopes.setCommand name relax false) := by
  intro other
  have command? := scopes.command?_give_local name other (.command relax)
  have alias? := scopes.alias?_give_local name other (.command relax)
  by_cases same : name = other
  · subst same
    rw [if_pos rfl] at command? alias?
    exact .inr ⟨undefined, alias?, relax, bound, command?⟩
  · rw [if_neg same] at command? alias?
    exact .inl ⟨command?, alias?⟩

/-! ## Normal control sequences -/

/-- A control sequence that complete expansion leaves as it is. -/
inductive Normal (scopes : Scopes) (name : String) : Prop where
  | undefined (unbound : scopes.command? name = none)
  | character {target : Token} (isAlias : scopes.alias? name = some target)
  | command {command : Command} (bound : scopes.command? name = some command)
      (stays : command.Stays)

theorem Normal.of_same (normal : before.Normal name) (same : before.SameMeaning after name) :
    after.Normal name := by
  cases normal with
  | undefined unbound => exact .undefined (same.command?.trans unbound)
  | character isAlias => exact .character (same.alias?.trans isAlias)
  | command bound stays => exact .command (same.command?.trans bound) stays

/-- A control sequence is normal, or it has become the same as `\relax` since some earlier
moment. -/
def Settled (before scopes : Scopes) (name : String) : Prop :=
  scopes.Normal name ∨ before.BecomesRelax scopes name

/-- What is settled stays settled when names become the same as `\relax`. -/
theorem Settled.mono (settled : before.Settled now name) (earlier : before.Relaxing now)
    (relaxing : now.Relaxing after) : before.Settled after name := by
  rcases relaxing name with same | becomes
  · exact settled.imp (·.of_same same) (·.of_same same)
  · exact .inr (becomes.of_relaxing earlier)

/-- If `\relax` is not expanded, neither is what has become the same. -/
theorem Settled.normal (settled : before.Settled after name)
    (stays : ∀ relax, before.command? "relax" = some relax → relax.Stays) : after.Normal name := by
  rcases settled with normal | becomes
  · exact normal
  · obtain ⟨relax, isRelax, bound⟩ := becomes.isRelax
    exact .command bound (stays relax isRelax)

end Scopes

namespace Engine

/-- What expansion gives a meaning to is the same as `\relax` then. -/
instance (before : Scopes) : Unaffected fun engine => before.Relaxing engine.scopes where
  input _ relaxing := relaxing
  log _ relaxing := relaxing
  expansions _ relaxing := relaxing
  relax relaxing undefined bound := relaxing.trans (Scopes.relaxing_setCommand undefined bound)

end Engine

end TexTree
