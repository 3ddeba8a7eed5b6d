import TexTree.Scope

/-!
# The stack of frames

Scopes keep the outermost frame apart from those inside of it, so that nothing can
remove it.  Seen as one stack with the innermost frame on top, closing scopes takes
frames off the stack as long as there are at least two.  That the scopes here are such
a stack is shown for every operation that closes some: what it does to a frame on top
is one function (`Closing`), and the loop around it stops in front of the last frame.
-/

namespace TexTree.Scopes

/-- What is done to the frame on top of the stack while scopes are closed. -/
inductive Closing where
  /-- Close the frame, and go on. -/
  | goesOn
  /-- Close the frame, and stop. -/
  | ends
  /-- Leave the frame open, and stop. -/
  | leaves
  deriving DecidableEq, Repr

/-- Close frames from the top of a stack while there are at least two. -/
def closeStack (closing : Frame → Closing) : List Frame → List Frame
  | [] => []
  | [last] => [last]
  | frame :: next :: rest =>
      match closing frame with
      | .goesOn => closeStack closing (next :: rest)
      | .ends => next :: rest
      | .leaves => frame :: next :: rest

variable {scopes : Scopes} {closing : Frame → Closing}

/-- Frames inside of a last one are closed as if this was not there. -/
theorem closeStack_append (closing : Frame → Closing) (frame : Frame) (inner : List Frame)
    (base : Frame) :
    closeStack closing (frame :: inner ++ [base]) =
      match closing frame with
      | .goesOn => closeStack closing (inner ++ [base])
      | .ends => inner ++ [base]
      | .leaves => frame :: inner ++ [base] := by
  cases inner <;> rfl

theorem getLast?_frames (scopes : Scopes) : scopes.frames.getLast? = some scopes.base := by
  simp [frames]

/-- Closing a group closes frames through the first one without an owner. -/
theorem frames_pop (scopes : Scopes) :
    scopes.pop.frames =
      closeStack (fun frame => if frame.isGroup then .ends else .goesOn) scopes.frames := by
  obtain ⟨inner, base⟩ := scopes
  unfold pop frames
  dsimp only
  induction inner with
  | nil => rfl
  | cons frame rest ih =>
      rw [closeStack_append]
      cases isGroup : frame.isGroup with
      | true => simp [isGroup]
      | false => simpa [isGroup] using ih

/-- Closing an element closes frames through the first one that belongs to it, and stops
at the frame of its parent. -/
theorem frames_popOwner (scopes : Scopes) (ending : FrameOwner) (parent : Option NodeId) :
    (scopes.popOwner ending parent).frames =
      closeStack (fun frame => if isParent ending parent frame then .leaves
        else if endsAt ending frame then .ends else .goesOn) scopes.frames := by
  obtain ⟨inner, base⟩ := scopes
  unfold popOwner frames
  dsimp only
  induction inner with
  | nil => rfl
  | cons frame rest ih =>
      rw [closeStack_append, closeFrames]
      by_cases stays : isParent ending parent frame = true
      · simp [stays]
      · by_cases ends : endsAt ending frame = true
        · simp [stays, ends]
        · simpa [stays, ends] using ih

/-- Closing all scopes leaves the outermost frame. -/
theorem frames_unwind (scopes : Scopes) :
    scopes.unwind.frames = closeStack (fun _ => .goesOn) scopes.frames := by
  obtain ⟨inner, base⟩ := scopes
  unfold unwind frames
  dsimp only
  induction inner with
  | nil => rfl
  | cons frame rest ih =>
      rw [closeStack_append]
      exact ih

end TexTree.Scopes
