import TexTree.Proofs.Document.VisibleText
import TexTree.Proofs.Engine.Arriving

/-!
# The visible text of the items of a flow

The text of a flow is what stands above some of its openings (`Ahead`), together with what
has been read too early (`Outstanding`).  Each item brings some of it along, and the rest is
ahead behind it (`Given`).
-/

namespace TexTree.Engine

variable {base : Openings Char} {frames : List Frame} {text : List Char} {size : Nat}
  {engine : Engine} {interpreter : Interpreter}

/-- The text that is to be read above the given openings, in tokens of the given size. -/
structure Ahead (base : Openings Char) (frames : List Frame) (text : List Char) (size : Nat)
    (engine : Engine) : Prop where
  flow : ∃ inner opened content count, (∀ entry ∈ inner, entry.1 ≠ .argument) ∧
    inner.length = opened.length ∧
    Following .visible true (inner ++ base) (opened ++ frames) content count engine ∧
    text = content ++ inner.flatMap Prod.snd ∧ 2 * count ≤ size

/-- The text that has been read too early, and the text that is to be read. -/
structure Outstanding (base : Openings Char) (frames : List Frame) (text : List Char)
    (size : Nat) (engine : Engine) : Prop where
  ahead : ∃ later less, Ahead base frames later less engine ∧
    text = engine.buffer.flatMap (engine.document.within .visible) ++ later ∧
    less + engine.buffer.length ≤ size
  elements : ∀ id ∈ engine.buffer, (engine.document.node id).kind = .element
  closers : ∀ id ∈ engine.buffer, (engine.document.node id).isCloser = true →
    engine.document.within .visible id = []

/-- Items are read up to the end of the source or of an argument. -/
def Bounded (base : Openings Char) : Prop := ∀ entry ∈ base.head?, entry.1 = .argument

/-- The next item has been read, and the text behind it is to be read. -/
inductive Given (base : Openings Char) (frames : List Frame) :
    List Char → Nat → Option Item → Engine → Prop where
  | ended {size : Nat} {engine : Engine} (isBase : base = [])
      (ahead : Ahead base frames [] size engine) : Given base frames [] size none engine
  | character {later : List Char} {size less : Nat} {token : Token} {engine : Engine}
      (plain : token.Plain) (ahead : Ahead base frames later less engine)
      (shorter : less < size) :
      Given base frames (Text.visible token.text.toList ++ later) size (some (.token token)) engine
  | marker {outer : Openings Char} {frame : Frame} {outside : List Frame} {after : List Char}
      {size : Nat} {token : Token} {tokens : List Token} {engine : Engine}
      (isBase : base = (.argument, after) :: outer) (isFrames : frames = frame :: outside)
      (isMarker : token.bare = .argumentEnd) (reading : Reading frames tokens engine)
      (framed : Framed outer outside) (flow : Flow .visible true outer tokens after)
      (formulas : engine.mathStack = formulasIn outer) (shorter : 2 * tokens.length + 2 ≤ size) :
      Given base frames [] size (some (.token token)) engine
  | node {later : List Char} {size less : Nat} {id : NodeId} {engine : Engine}
      (isElement : (engine.document.node id).kind = .element)
      (closes : (engine.document.node id).isCloser = true →
        engine.document.within .visible id = [])
      (ahead : Ahead base frames later less engine) (shorter : less < size) :
      Given base frames (engine.document.within .visible id ++ later) size (some (.node id))
        engine

theorem Ahead.weaken {more : Nat} (ahead : Ahead base frames text size engine)
    (fewer : size ≤ more) : Ahead base frames text more engine := by
  obtain ⟨inner, opened, content, count, unbounded, sameLength, following, isText, short⟩ :=
    ahead.flow
  exact ⟨inner, opened, content, count, unbounded, sameLength, following, isText,
    Nat.le_trans short fewer⟩

/-- What has been read too early does not concern what is to be read, nor do the document and
the reports. -/
theorem Ahead.same {after : Engine} (ahead : Ahead base frames text size engine)
    (input : after.input = engine.input) (scopes : after.scopes = engine.scopes)
    (formulas : after.mathStack = engine.mathStack) : Ahead base frames text size after := by
  obtain ⟨inner, opened, content, count, unbounded, sameLength, following, isText, short⟩ :=
    ahead.flow
  exact ⟨inner, opened, content, count, unbounded, sameLength,
    following.same input scopes formulas, isText, short⟩

/-- The node of an arrival is a node of the document, and closers are empty. -/
theorem Delivered.given {id : NodeId} {data : Node} {inside content : List Char}
    {opened : List Frame} {count : Nat} {inner : Openings Char}
    (delivered : Delivered .visible true id data inside (inner ++ base) (opened ++ frames)
      content count engine)
    (unbounded : ∀ entry ∈ inner, entry.1 ≠ .argument) (sameLength : inner.length = opened.length)
    (closes : data.isCloser = true → inside = []) (shorter : 2 * count < size) :
    Given base frames (inside ++ (content ++ inner.flatMap Prod.snd)) size (some (.node id))
      engine := by
  have sameCloser : (engine.document.node id).isCloser = data.isCloser := by
    have same := congrArg Node.isCloser delivered.essence
    exact same
  rw [← delivered.within]
  refine .node delivered.kind ?_ ⟨inner, opened, content, count, unbounded, sameLength,
    delivered.following, rfl, Nat.le_refl _⟩ shorter
  rw [sameCloser, delivered.within]
  exact closes

/-- What arrives from a flow is given. -/
theorem Arrives.given {inner : Openings Char} {opened : List Frame} {content : List Char}
    {count : Nat} {item : Option Item} (bounded : Bounded base)
    (unbounded : ∀ entry ∈ inner, entry.1 ≠ .argument) (sameLength : inner.length = opened.length)
    (arrives : Arrives .visible true (inner ++ base) (opened ++ frames) content count item engine) :
    Given base frames (content ++ inner.flatMap Prod.snd) (2 * count) item engine := by
  generalize isStack : inner ++ base = stack at arrives
  generalize isAll : opened ++ frames = all at arrives
  cases arrives with
  | ended following =>
      obtain ⟨rfl, rfl⟩ := List.append_eq_nil_iff.mp isStack
      obtain ⟨rfl, rfl⟩ := List.append_eq_nil_iff.mp isAll
      exact .ended rfl ⟨[], [], [], 0, by simp, rfl, following, rfl, Nat.le_refl _⟩
  | character plain following shorter =>
      subst isStack isAll
      rw [List.append_assoc]
      exact .character plain ⟨inner, opened, _, _, unbounded, sameLength, following, rfl,
        Nat.le_refl _⟩ (by omega)
  | marker isMarker reading framed flow formulas shorter =>
      -- An inner opening is no argument, so the marker belongs to the base.
      cases inner with
      | cons entry inner =>
          obtain ⟨rfl, _⟩ := List.cons_eq_cons.mp isStack
          exact absurd rfl (unbounded _ List.mem_cons_self)
      | nil =>
          obtain rfl : opened = [] := List.length_eq_zero_iff.mp sameLength.symm
          rw [List.nil_append] at isStack isAll
          subst isAll
          exact .marker isStack rfl isMarker reading framed flow formulas (by omega)
  | @opened _ frame _ inside after _ less id data opening _ _ _ _ _ _ delivered notArgument
      shorter =>
      subst isStack isAll
      replace delivered : Delivered .visible true id data [] (((opening, after) :: inner) ++ base)
        ((frame :: opened) ++ frames) inside less engine := delivered
      have unboundedInside : ∀ entry ∈ (opening, after) :: inner, entry.1 ≠ .argument := by
        intro entry member
        rcases List.mem_cons.mp member with rfl | outer
        · exact notArgument
        · exact unbounded entry outer
      have given : Given base frames
          ([] ++ (inside ++ ((opening, after) :: inner).flatMap Prod.snd)) (2 * count)
          (some (.node id)) engine :=
        delivered.given unboundedInside (by simp [sameLength]) (fun _ => rfl) (by omega)
      simpa [Gauge.visible, List.append_assoc] using given
  | @closed _ _ _ after _ _ id _ _ _ _ _ notArgument delivered shorter =>
      cases inner with
      | nil =>
          -- The base is an argument, which is not closed by a node.
          rw [List.nil_append] at isStack
          subst isStack
          exact absurd (bounded _ rfl) notArgument
      | cons entry inner =>
          obtain ⟨rfl, rfl⟩ := List.cons_eq_cons.mp isStack
          cases opened with
          | nil => cases sameLength
          | cons frame opened =>
              obtain ⟨_, rfl⟩ := List.cons_eq_cons.mp isAll
              have given : Given base frames ([] ++ (after ++ inner.flatMap Prod.snd)) (2 * count)
                  (some (.node id)) engine :=
                delivered.given
                  (fun entry member => unbounded entry (List.mem_cons_of_mem _ member))
                  (by simpa using sameLength) (fun _ => rfl) (by omega)
              simpa using given
  | @enclosed _ _ inside after _ less id data name _ known form _ _ _ delivered shorter =>
      subst isStack isAll
      have opens : data.isCloser = false := by
        have isName : data.name = name := congrArg Form.name form
        have isPlain : data.mode = .plain := congrArg Form.mode form
        have other : ∀ name ∈ Builtin.selfNames, name ≠ "egroup" ∧ name ≠ "endgroup" := by decide
        have isOther := other name known
        simp [Node.isCloser, isPlain, Node.closesGroup, isName, isOther.1, isOther.2]
      have given : Given base frames (inside ++ (after ++ inner.flatMap Prod.snd)) (2 * count)
          (some (.node id)) engine :=
        delivered.given unbounded sameLength (by simp [opens]) (by omega)
      simpa [Gauge.visible, List.append_assoc] using given
  | passed isLoose delivered shorter =>
      subst isStack isAll
      exact delivered.given unbounded sameLength (fun _ => rfl) (by omega)

/-! ## Items -/

/-- Every item is given, in tokens up to the given size. -/
def GivesItems (interpreter : Interpreter) (bound : Nat) : Prop :=
  ∀ {base : Openings Char} {frames : List Frame} {text : List Char} {size : Nat} {engine : Engine},
    Bounded base → size ≤ bound → engine.Waiting → Outstanding base frames text size engine →
    Runs (interpreter.run .nextItem) engine (Given base frames text size)

/-- A node that digests keeps the text that it holds, together with the text that is
outstanding. -/
def KeepsText (interpreter : Interpreter) (bound : Nat) : Prop :=
  ∀ {base : Openings Char} {frames : List Frame} {text : List Char} {size : Nat} {engine : Engine}
    {id : NodeId},
    Bounded base → size ≤ bound → engine.Steady → engine.document.Ready id →
    Outstanding base frames text size engine →
    Runs (interpreter.run (.digest id)) engine fun _ after =>
      (after.document.node id).kind = (engine.document.node id).kind ∧
      ∃ later, Outstanding base frames later size after ∧
        after.document.within .visible id ++ later = engine.document.within .visible id ++ text

theorem Given.weaken {item : Option Item} {more : Nat}
    (given : Given base frames text size item engine) (fewer : size ≤ more) :
    Given base frames text more item engine := by
  cases given with
  | ended isBase ahead => exact .ended isBase (ahead.weaken fewer)
  | character plain ahead shorter => exact .character plain ahead (Nat.lt_of_lt_of_le shorter fewer)
  | marker isBase isFrames isMarker reading framed flow formulas shorter =>
      exact .marker isBase isFrames isMarker reading framed flow formulas
        (Nat.le_trans shorter fewer)
  | node isElement closes ahead shorter =>
      exact .node isElement closes ahead (Nat.lt_of_lt_of_le shorter fewer)

/-- A node that was read too early is given before everything else. -/
theorem runs_nextItem_given (builds : interpreter.Builds) (idles : Idles interpreter)
    (enough : 0 < interpreter.limit) {bound : Nat}
    (reads : ∀ count, 2 * count ≤ bound → ReadsArguments .visible true interpreter count)
    (bounded : Bounded base) (short : size ≤ bound) (waiting : engine.Waiting)
    (outstanding : Outstanding base frames text size engine) :
    Runs (nextItem interpreter) engine (Given base frames text size) := by
  obtain ⟨later, less, ahead, rfl, fewer⟩ := outstanding.ahead
  cases early : engine.buffer with
  | cons id rest =>
      have last : rest = [] := by
        have isShort := waiting.short
        rw [early] at isShort
        simpa using isShort
      subst last
      obtain ⟨steps, limit⟩ := Nat.exists_eq_add_one.mpr enough
      unfold nextItem
      rw [limit, nextItemWithin]
      apply runs_get
      rw [early]
      have member : id ∈ engine.buffer := by simp [early]
      rw [early] at fewer
      refine runs_modify_bind (runs_pure ?_)
      have given := @Given.node base frames later size less id { engine with buffer := [] }
        (outstanding.elements id member) (outstanding.closers id member)
        (ahead.same rfl rfl rfl) fewer
      simpa using given
  | nil =>
      obtain ⟨inner, opened, content, count, unbounded, sameLength, following, rfl, isLess⟩ :=
        ahead.flow
      have steady := waiting.steady early
      rw [early] at fewer
      have small : 2 * count ≤ size := Nat.le_trans isLess fewer
      refine (following.runs_nextItem builds idles enough (reads count (Nat.le_trans small short))
        (fun _ => rfl) steady).mono ?_
      intro item after arrives
      exact (arrives.given bounded unbounded sameLength).weaken small

end TexTree.Engine
