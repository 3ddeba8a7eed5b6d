import TexTree.Proofs.Reference.Commands

/-!
# References across sources

Items and digestion keep references in their document, since everything that a task
does is done by commands and by moving nodes about.  By induction on the number of
tasks inside of each other, so does the interpreter.

The main result is about sources that are interpreted one after the other.  The
target of a reference in a returned document is a node of that document, unless the
label was left over by an earlier source (`references_confined`).
-/

namespace TexTree.Engine

variable {old : References} {interpreter : Interpreter} {bound : Nat}

/-! ## Items and digestion -/

theorem keeping_nextItemWithin (confines : interpreter.Confines old) (steps : Nat) :
    Keeping old bound (nextItemWithin interpreter steps) := by
  induction steps generalizing bound with
  | zero => exact .fail _
  | succ steps ih =>
      unfold nextItemWithin
      apply Confining.get.next
      intro engine _ _
      split
      · refine Confining.next ?_ fun _ _ _ => .done _
        exact .modify (fun _ regular => regular) (fun _ => rfl) (fun _ => rfl) fun _ => rfl
      · apply Confining.next (.quiet fun _ => retains_nextToken)
        intro found _ _
        split
        · exact .done _
        · apply (keeping_tokenItem confines _).next
          intro item _ _
          split
          · exact .done _
          · exact ih

theorem keeping_digestWithin (confines : interpreter.Confines old) (id : NodeId) (node : Node)
    (steps : Nat) (hasBreak : Bool) :
    Keeping old bound (digestWithin interpreter id node steps hasBreak) := by
  induction steps generalizing bound hasBreak with
  | zero => exact .fail _
  | succ steps ih =>
      unfold digestWithin
      apply (keeping_nextItem confines).next
      intro item _ _
      split
      · split
        · exact Confining.next (.quiet fun _ => retains_report _) fun _ _ _ => .done _
        · exact .done _
      · split
        · exact Confining.next (.quiet fun _ => retains_putBack _) fun _ _ _ => .done _
        · apply Confining.get.next
          intro engine _ _
          dsimp only
          split
          · exact (Confining.appendText id _).next fun _ _ _ => ih _
          · exact ih _
      · next following =>
          apply (Confining.nodeOf following).next
          intro inner _ _
          split
          · apply (keeping_digest confines following).next
            intro _ _ _
            exact (Confining.appendNode id following).next fun _ _ _ => ih _
          · exact (Confining.appendNode id following).next fun _ _ _ => ih _
          · refine Confining.next ?_ fun _ _ _ => .done _
            exact .modify (fun _ regular => regular) (fun _ => rfl) (fun _ => rfl) fun _ => rfl
          · exact .done _

theorem keeping_digestNode (confines : interpreter.Confines old) (id : NodeId) :
    Keeping old bound (digest interpreter id) := by
  have regroups : ∀ (size : Nat) (force : Bool),
      Keeping old size (modifyDocument (·.paragraphs id force)) := fun _ force =>
    .modifyDocument fun document => .paragraphs document id force
  unfold digest
  apply (Confining.nodeOf id).next
  intro node _ _
  split
  · exact .done _
  · apply (keeping_digestWithin confines id node _ false).next
    intro hasBreak _ _
    split
    · exact .done _
    · split
      · exact regroups _ true
      · exact .done _
    · exact regroups _ true
    · exact regroups _ true
    · exact regroups _ false
    · exact regroups _ false

/-- The interpreter keeps references where they belong, whatever its bound is. -/
theorem confines_interpreter (old : References) (fuel : Nat) :
    (Engine.interpreter fuel).Confines old := by
  induction fuel with
  | zero => exact ⟨calm_interpreter 0, .fail _, fun _ => .fail _⟩
  | succ fuel ih =>
      exact ⟨calm_interpreter (fuel + 1), keeping_nextItemWithin ih _, keeping_digestNode ih⟩

theorem keeping_digestRootWithin (confines : interpreter.Confines old) (steps : Nat) :
    Keeping old bound (digestRootWithin interpreter steps) := by
  induction steps generalizing bound with
  | zero => exact .fail _
  | succ steps ih =>
      unfold digestRootWithin
      apply (keeping_nextItem confines).next
      intro item _ _
      split
      · exact .done _
      · dsimp only
        split
        · exact (Confining.appendText Document.root _).next fun _ _ _ => ih
        · exact ih
      · exact keeping_takeUp confines Document.root _ fun _ => ih

/-! ## Sources -/

theorem current_interpret (fuel : Nat) (engine : Engine) :
    (left (interpret fuel engine)).references.current = none := by
  unfold interpret
  cases digestRoot (interpreter fuel) engine with
  | ok value done => rfl
  | error error failed => rfl

/-- Between two sources there is no node that labels are attached to. -/
theorem Used.current {engine : Engine} (used : engine.Used) :
    engine.references.current = none := by
  induction used with
  | fresh settings files date => rfl
  | text used fuel text ih => exact current_interpret fuel _
  | file used fuel path ih =>
      rename_i engine
      rcases parseFileWithin_eq fuel path engine with ⟨error, fails⟩ | ⟨started, parses, _⟩
      · rw [fails]
        exact ih
      · rw [parses]
        exact current_interpret fuel started

/-- An engine that starts with a source knows the labels and references that are left
over, and its document has none. -/
theorem Used.confined {engine : Engine} (used : engine.Used) :
    engine.Confined engine.references := by
  have idle := used.idle
  refine ⟨idle.sane, ⟨?_, ?_, ?_⟩, ?_⟩
  · intro label target found
    exact .inr found
  · intro label waiting found entry member
    exact .inr (by simpa [found] using member)
  · intro target isCurrent
    rw [used.current] at isCurrent
    cases isCurrent
  · intro id entry member
    rw [idle.document] at member
    cases id with
    | zero => cases member
    | succ id => cases member

/-- The references in the document of a source have their targets in that document, and
the labels and references that it leaves behind concern nodes of that document, apart
from those that were left over from earlier sources. -/
theorem references_confined {engine after : Engine} (used : engine.Used) {fuel : Nat}
    {text : String} {document : Document}
    (parsed : parseTextWithin fuel text engine = .ok document after) :
    document.Refers (engine.references.Allowed document.size) ∧
      engine.references.Confined document.size after.references := by
  let started : Engine := { engine with input := engine.input.pushText text "<string>" }
  have confined : started.Confined engine.references :=
    used.confined.same (fun regular => regular) rfl rfl rfl
  have sat := keeping_digestRootWithin (confines_interpreter engine.references fuel)
    (interpreter fuel).limit started (Nat.zero_le _) confined
  change interpret fuel started = .ok document after at parsed
  unfold interpret at parsed
  cases outcome : digestRoot (interpreter fuel) started with
  | error error failed =>
      rw [outcome] at parsed
      cases parsed
  | ok value done =>
      rw [outcome] at parsed
      cases parsed
      obtain ⟨_, confined, _⟩ := sat.ok outcome
      have keeps := Document.KeepsAttributes.paragraphs done.document Document.root false
      have final := confined.setDocument keeps
      refine ⟨final.document, ⟨final.references.labels, final.references.pending, ?_⟩⟩
      intro target isCurrent
      cases isCurrent

set_option maxRecDepth 100000 in
/-- A label that was attached to the tenth node of one document is the target of a
reference in the next document, which has fewer nodes. -/
theorem references_confined_left_over :
    ∃ (engine : Engine) (document : Document), engine.Used ∧ engine.Returns document ∧
      document.size = 4 ∧ (∃ entry ∈ (document.node 1).attributes, ("x", 10) ∈ entry.2.targets) ∧
      engine.references.labels.get? "x" = some 10 := by
  let first :=
    "\\textbf\x7ba\x7d\\textbf\x7bb\x7d\\textbf\x7bc\x7d\\section\x7bs\x7d\\label\x7bx\x7d"
  let engine := left (parseTextWithin 100 first (fresh {} default ⟨2021, 3, 4⟩ .empty))
  have used : engine.Used := .text (.fresh _ _ _) 100 first
  have facts : (document? (parseTextWithin 100 "\\ref\x7bx\x7d" engine)).map (fun document =>
      (document.size, (document.node 1).attributes.flatMap fun entry => entry.2.targets)) =
      some (4, [("x", 10)]) := by
    unfold engine
    rw [fresh, Builtin.scopes_eq]
    decide +kernel
  obtain ⟨document, success, known⟩ := Option.map_eq_some_iff.mp facts
  obtain ⟨size, targets⟩ := Prod.mk.inj known
  obtain ⟨entry, member, isTarget⟩ :=
    List.mem_flatMap.mp (targets ▸ List.mem_singleton.mpr rfl :
      ("x", 10) ∈ (document.node 1).attributes.flatMap fun entry => entry.2.targets)
  refine ⟨engine, document, used, ⟨100, .inl ⟨_, success⟩⟩, size, ⟨entry, member, isTarget⟩, ?_⟩
  cases outcome : parseTextWithin 100 "\\ref\x7bx\x7d" engine with
  | error error failed =>
      rw [outcome] at success
      cases success
  | ok result after =>
      rw [outcome] at success
      cases success
      rcases (references_confined used outcome).1 1 entry member _ isTarget with inside | leftOver
      · rw [size] at inside
        exact absurd inside (by decide)
      · exact leftOver

end TexTree.Engine
