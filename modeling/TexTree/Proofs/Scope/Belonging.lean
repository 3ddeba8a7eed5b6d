import TexTree.Scope

/-!
# The scope of an element that ends

An element that ends closes the innermost scope that belongs to it, with everything that
was opened inside.  A scope belongs to it by the node of its owner, by its name, or by the
name of the command that ends it.

The search for that scope closes the scopes it passes.  So where no scope belongs to the
element, as after an argument that has closed it already, all of them are closed, those of
the elements around it included.
-/

namespace TexTree

theorem Text.afterMark?_eq_some_iff {mark text rest : String} :
    afterMark? mark text = some rest ↔ text = mark ++ rest := by
  rw [afterMark?]
  constructor
  · intro found
    split at found
    · next starts =>
        obtain ⟨tail, isTail⟩ := List.isPrefixOf_iff_prefix.mp starts
        rw [← isTail, List.drop_left, Option.some.injEq] at found
        rw [← String.toList_inj, ← isTail, String.toList_append, ← found, String.toList_ofList]
    · cases found
  · rintro rfl
    simp [List.isPrefixOf_iff_prefix]

namespace Scopes

/-- What it is for the scope of an owner to belong to an element that ends. -/
inductive Belongs (ending owner : FrameOwner) : Prop where
  /-- Both come from one node. -/
  | node {node : NodeId} (opened : owner.node = some node) (ended : ending.node = some node)
  /-- The element is closed under the name of the owner. -/
  | name (same : owner.name = ending.name) (closes : ending.mode = .closing)
  /-- The element is the command that ends the owner. -/
  | ends (isEnd : ending.name = "end" ++ owner.name)

variable {ending : FrameOwner} {frame : Frame}

/-- A frame belongs to an element that ends if its owner does; a group belongs to none. -/
def IsOf (ending : FrameOwner) (frame : Frame) : Prop :=
  ∃ owner, frame.owner = some owner ∧ Belongs ending owner

theorem endsAt_iff : endsAt ending frame = true ↔ IsOf ending frame := by
  have belongs_iff (owner : FrameOwner) :
      ((owner.node.isSome && owner.node == ending.node) ||
        (owner.name == ending.name && ending.mode == .closing) ||
        Text.afterMark? "end" ending.name == some owner.name) = true ↔
          Belongs ending owner := by
    simp only [Bool.or_eq_true, Bool.and_eq_true, beq_iff_eq, Text.afterMark?_eq_some_iff,
      Option.isSome_iff_exists]
    constructor
    · rintro ((⟨⟨node, opened⟩, same⟩ | ⟨same, closes⟩) | isEnd)
      · exact .node opened (same ▸ opened)
      · exact .name same closes
      · exact .ends isEnd
    · rintro (⟨opened, ended⟩ | ⟨same, closes⟩ | isEnd)
      · exact .inl (.inl ⟨⟨_, opened⟩, opened.trans ended.symm⟩)
      · exact .inl (.inr ⟨same, closes⟩)
      · exact .inr isEnd
  rw [endsAt, Option.any_eq_true, IsOf]
  exact exists_congr fun owner => and_congr_right fun _ => belongs_iff owner

instance (ending : FrameOwner) (frame : Frame) : Decidable (IsOf ending frame) :=
  decidable_of_iff _ endsAt_iff

/-- Without a parent to stop at, the search passes every frame of another owner. -/
theorem closeFrames_cons (ending : FrameOwner) (frame : Frame) (rest : List Frame) :
    closeFrames ending none (frame :: rest) =
      if endsAt ending frame then rest else closeFrames ending none rest := by
  have notParent : isParent ending none frame = false := by
    rw [isParent, Option.any_eq_false]
    rintro owner -
    cases owner.node <;> simp
  rw [closeFrames, notParent, if_neg Bool.false_ne_true]

/-- The search closes the frames it passes and the first that belongs to the element. -/
theorem closeFrames_passed {above : List Frame} (below : List Frame) (isOf : IsOf ending frame)
    (passed : ∀ other ∈ above, ¬ IsOf ending other) :
    closeFrames ending none (above ++ frame :: below) = below := by
  induction above with
  | nil => rw [List.nil_append, closeFrames_cons, if_pos (endsAt_iff.mpr isOf)]
  | cons other above ih =>
      have goesOn : ¬ endsAt ending other = true :=
        fun ends => passed other (by simp) (endsAt_iff.mp ends)
      rw [List.cons_append, closeFrames_cons, if_neg goesOn]
      exact ih fun other member => passed other (List.mem_cons_of_mem _ member)

/-- A search that finds nothing has closed everything. -/
theorem closeFrames_lost {frames : List Frame} (passed : ∀ other ∈ frames, ¬ IsOf ending other) :
    closeFrames ending none frames = [] := by
  induction frames with
  | nil => rfl
  | cons other frames ih =>
      have goesOn : ¬ endsAt ending other = true :=
        fun ends => passed other (by simp) (endsAt_iff.mp ends)
      rw [closeFrames_cons, if_neg goesOn]
      exact ih fun other member => passed other (List.mem_cons_of_mem _ member)

/-- The frames that are open when an element has ended: those outside of the innermost one
that belongs to it.  If none belongs to it, only the outermost frame is left. -/
theorem owner_closed (scopes : Scopes) (ending : FrameOwner) :
    (∀ above frame below, scopes.inner = above ++ frame :: below → IsOf ending frame →
        (∀ other ∈ above, ¬ IsOf ending other) →
        (scopes.popOwner ending none).frames = below ++ [scopes.base]) ∧
      ((∀ frame ∈ scopes.inner, ¬ IsOf ending frame) →
        (scopes.popOwner ending none).frames = [scopes.base]) := by
  constructor
  · intro above frame below isInner isOf passed
    rw [frames, popOwner, isInner, closeFrames_passed below isOf passed]
  · intro passed
    rw [frames, popOwner, closeFrames_lost passed, List.nil_append]

/-- A group and two elements are open.  The end of the element inside closes it with its
group, and a name that nothing was opened under closes all three. -/
theorem owner_closed_inside :
    let opened (name : String) := Frame.fresh (some { node := none, name }) .initial
    let scopes : Scopes := ⟨[.fresh none .initial, opened "foo", opened "bar"], initial.base⟩
    (scopes.popOwner { node := none, name := "endfoo" } none).frames =
        [opened "bar", initial.base] ∧
      (scopes.popOwner { node := none, name := "baz" } none).frames = [initial.base] := by
  intro opened scopes
  refine ⟨(owner_closed scopes _).1 [.fresh none .initial] (opened "foo") [opened "bar"] rfl
    (by decide) (by decide), (owner_closed scopes _).2 (by decide)⟩

end Scopes

end TexTree
