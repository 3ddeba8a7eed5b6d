import TexTree.Proofs.Engine.Contents

/-!
# Recording sources

Sources of characters, groups, environments, formulas, breaks between paragraphs and commands
with an argument are read to their end if nothing is closed in them that is not open, and each
event of them is recorded (`Engine.Records.runs_takeItems`).

So the bookkeeping of the engine mirrors its scopes all the time if and only if nothing is
closed in the source together with something else, and if no list ends while more than
`maxListDepth` are open (`Engine.mirrors_iff_tidily`).
-/

namespace TexTree

namespace Engine

variable {engine after : Engine} {book : Bookkeeping} {tokens : List Token}

/-- Each event is an item, and is recorded.  Nothing is read behind the end of the document. -/
theorem Records.runs_nextItem {event : Event}
    (records : Records book (event.tokens ++ tokens) engine) (allowed : event.Allowed book)
    {fuel : Nat} (enough : event.nesting ≤ fuel) (steps : Nat) :
    Runs (nextItemWithin (Engine.interpreter (fuel + 1)) (steps + 1)) engine fun result after =>
      ∃ item, result = some item ∧ ∃ left, Records (book.record event) left after ∧
        (event.endsInput = false → left = tokens) := by
  have idles := idles_interpreter fuel
  have ⟨encloses, formulas, environments, listDepth⟩ := records
  cases event with
  | entry entry =>
      refine (records.runs_entry idles allowed steps).mono ?_
      rintro _ after ⟨item, rfl, _, recorded⟩
      exact ⟨item, rfl, tokens, recorded, fun _ => rfl⟩
  | paragraph =>
      refine (encloses.runs_paragraph idles steps).mono ?_
      rintro _ after ⟨item, rfl, _, position, comes⟩
      refine ⟨item, rfl, tokens, comes.records ?_ ?_ ?_, fun _ => rfl⟩
      · exact formulas
      · exact environments
      · exact listDepth
  | openGroup =>
      refine (encloses.runs_beginGroup idles steps).mono ?_
      rintro _ after ⟨item, rfl, _, position, comes⟩
      refine ⟨item, rfl, tokens, comes.records ?_ ?_ ?_, fun _ => rfl⟩
      · exact formulas
      · exact environments
      · exact listDepth
  | closeGroup =>
      refine (encloses.runs_endGroup idles allowed steps).mono ?_
      rintro _ after ⟨item, rfl, _, position, comes⟩
      refine ⟨item, rfl, tokens, comes.records ?_ ?_ ?_, fun _ => rfl⟩
      · exact formulas
      · exact environments
      · exact listDepth
  | closeEnvironment name =>
      rw [Event.tokens, List.cons_append, behind_braced] at encloses
      refine (encloses.runs_end idles allowed.1 allowed.2 steps).mono ?_
      rintro _ after ⟨item, rfl, _, position, comes⟩
      refine ⟨item, rfl, tokens, comes.records ?_ ?_ ?_, fun _ => rfl⟩
      · exact formulas
      · rw [closed, environments]
        rfl
      · rw [closed, listDepth]
        rfl
  | closeFormula kind =>
      have inside : engine.mathStack.head? = some kind.name := formulas ▸ allowed
      refine (encloses.runs_closeFormula idles kind inside steps).mono ?_
      rintro _ after ⟨item, rfl, _, position, comes⟩
      refine ⟨item, rfl, tokens, comes.records ?_ ?_ ?_, fun _ => rfl⟩
      · rw [formulaClosed, formulas]
        rfl
      · rw [formulaClosed, closed, environments]
        rfl
      · rw [formulaClosed, closed, listDepth]
        rfl
  | beginDocument =>
      have isName : "document" ∈ Builtin.enclosureNames := by decide
      rw [Event.tokens, List.cons_append, behind_braced] at encloses
      refine (encloses.runs_begin idles isName steps).mono ?_
      rintro _ after ⟨item, rfl, _, position, comes⟩
      refine ⟨item, rfl, tokens, comes.records ?_ ?_ ?_, fun _ => rfl⟩
      · exact formulas
      · rw [opened, environments]
        rfl
      · rw [opened, listDepth]
        rfl
  | endDocument =>
      rw [Event.tokens, List.cons_append, behind_braced] at encloses
      refine (encloses.runs_endDocument idles allowed steps).mono ?_
      rintro _ after ⟨item, rfl, _, position, left, comes⟩
      refine ⟨item, rfl, left, comes.records ?_ ?_ ?_, fun isFalse => by cases isFalse⟩
      · exact formulas
      · rw [closed, environments]
        rfl
      · rw [closed, listDepth]
        rfl
  | command name content =>
      obtain ⟨known, allowedContent⟩ := allowed
      obtain ⟨less, rfl⟩ : ∃ less, fuel = less + 1 :=
        Nat.exists_eq_add_one.mpr (Nat.lt_of_lt_of_le (Nat.succ_pos _) enough)
      refine (records.runs_command known allowedContent (Nat.le_of_succ_le_succ enough)
        steps).mono ?_
      rintro _ after ⟨item, rfl, recorded⟩
      exact ⟨item, rfl, tokens, recorded, fun _ => rfl⟩

/-- The next items, at most so many. -/
def takeItems (interpreter : Interpreter) : Nat → TexM (List Item)
  | 0 => return []
  | count + 1 => do
      match ← interpreter.run .nextItem with
      | none => return []
      | some item => return item :: (← takeItems interpreter count)

/-- Each event of a source is an item, and all of them are recorded. -/
theorem Records.runs_takeItems {events : List Event}
    (records : Records book (events.flatMap Event.tokens) engine)
    (accepted : Event.Accepted book events) {fuel : Nat}
    (enough : ∀ event ∈ events, event.nesting ≤ fuel) {count : Nat}
    (inside : count ≤ events.length) :
    Runs (takeItems (Engine.interpreter (fuel + 2)) count) engine fun items after =>
      items.length = count ∧
        ∃ left, Records ((events.take count).foldl Bookkeeping.record book) left after := by
  induction count generalizing book engine events with
  | zero => exact runs_pure ⟨rfl, _, by simpa using records⟩
  | succ count ih =>
      cases events with
      | nil => simp at inside
      | cons event rest =>
          obtain ⟨allowed, last, further⟩ := accepted
          have insideRest : count ≤ rest.length := by simpa using inside
          rw [List.flatMap_cons] at records
          refine (records.runs_nextItem allowed (enough event List.mem_cons_self) fuel).bind ?_
          rintro _ between ⟨item, rfl, left, recorded, goesOn⟩
          have follows : Runs (takeItems (Engine.interpreter (fuel + 2)) count) between
              fun items after => items.length = count ∧ ∃ left, Records
                ((rest.take count).foldl Bookkeeping.record (book.record event)) left after := by
            cases ended : event.endsInput with
            | true =>
                have noneLeft : count = 0 := by simpa [last ended] using insideRest
                subst noneLeft
                exact runs_pure ⟨rfl, left, recorded⟩
            | false =>
                exact ih (goesOn ended ▸ recorded) further
                  (fun other member => enough other (List.mem_cons_of_mem _ member)) insideRest
          refine follows.bind ?_
          rintro items after ⟨length, recordsAll⟩
          exact runs_pure ⟨by simp [length], by simpa using recordsAll⟩

/-- What is known about a computation that succeeds is known about the engine behind it. -/
theorem Runs.forall_iff {α : Type} {computation : TexM α} {post post' : α → Engine → Prop}
    {holds : Prop} (runs : Runs computation engine post)
    (equivalent : ∀ value after, post value after → (post' value after ↔ holds)) :
    Runs computation engine post' ↔ holds := by
  obtain ⟨value, after, equal, isPost⟩ := runs
  constructor
  · rintro ⟨value', after', equal', isPost'⟩
    cases equal.symm.trans equal'
    exact (equivalent value after isPost).mp isPost'
  · exact fun isHolding => ⟨value, after, equal, (equivalent value after isPost).mpr isHolding⟩

/-- Sources that do not fail are read to their end.  The bookkeeping mirrors the scopes between
any two items of them if and only if nothing is closed together with something else, and no
list ends while more than `maxListDepth` are open. -/
theorem mirrors_iff_tidily {events : List Event} (accepted : Event.Accepted .initial events)
    {text : String} (spelled : ((Reader.ofText text "<string>").tokens .initial).1.map Token.bare =
      events.flatMap Event.tokens)
    (settings : Settings) (files : Files) (date : Date) {fuel : Nat}
    (enough : ∀ event ∈ events, event.nesting ≤ fuel) :
    (∀ count ≤ events.length, Runs (takeItems (Engine.interpreter (fuel + 2)) count)
      ((fresh settings files date .empty).withText text) fun items _ => items.length = count) ∧
    ((∀ count ≤ events.length, Runs (takeItems (Engine.interpreter (fuel + 2)) count)
      ((fresh settings files date .empty).withText text) fun _ after => after.MirrorsScopes) ↔
      Event.Tidily .initial events) := by
  rw [Reader.map_bare_tokens] at spelled
  have encloses := encloses_fresh settings files date spelled
  have records : Records .initial (events.flatMap Event.tokens)
      ((fresh settings files date .empty).withText text) := ⟨encloses, rfl, rfl, rfl⟩
  have mirrored : Bookkeeping.initial.Mirrored := ⟨rfl, rfl⟩
  have runs (count : Nat) (inside : count ≤ events.length) :=
    records.runs_takeItems accepted enough inside
  refine ⟨fun count inside => (runs count inside).mono fun _ _ facts => facts.1, ?_⟩
  rw [← mirrored.forall_record_iff accepted]
  refine forall₂_congr fun count inside => ?_
  exact (runs count inside).forall_iff fun _ _ facts => facts.2.elim fun _ => Records.mirrors_iff

/-- A list that is closed with the group around it. -/
def abandonedList : List Event :=
  [.openGroup, .entry (.openEnvironment "itemize"), .closeGroup,
    .entry (.character (.letter 'x'))]

theorem mirrors_iff_tidily_abandonedList :
    Event.Accepted .initial abandonedList ∧
    ((Reader.ofText "\x7b\\begin\x7bitemize\x7d\x7dx" "<string>").tokens .initial).1.map
      Token.bare = abandonedList.flatMap Event.tokens ∧
    (∀ event ∈ abandonedList, event.nesting ≤ 0) ∧
    ¬∀ count ≤ 4, Runs (takeItems (Engine.interpreter 2) count)
      ((fresh {} default ⟨2021, 3, 4⟩ .empty).withText "\x7b\\begin\x7bitemize\x7d\x7dx")
        fun _ after => after.MirrorsScopes := by
  have accepted : Event.Accepted .initial abandonedList := by decide
  have spelled : ((Reader.ofText "\x7b\\begin\x7bitemize\x7d\x7dx" "<string>").tokens
      .initial).1.map Token.bare = abandonedList.flatMap Event.tokens := by
    decide +kernel
  have enough : ∀ event ∈ abandonedList, event.nesting ≤ 0 := by decide
  have untidy : ¬Event.Tidily .initial abandonedList := by decide
  refine ⟨accepted, spelled, enough, fun mirrors => untidy ?_⟩
  exact (mirrors_iff_tidily accepted spelled {} default ⟨2021, 3, 4⟩ enough).2.mp mirrors

end Engine

end TexTree
