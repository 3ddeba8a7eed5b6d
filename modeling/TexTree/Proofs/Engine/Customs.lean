import TexTree.Proofs.Engine.Beginning
import TexTree.Proofs.Engine.Items
import TexTree.Proofs.Language.Family

/-!
# Environments that are defined

An environment of a family has two definitions without arguments, which are replaced by
letters (`Definition.Writes`).  While the environments are defined one after the other, the
outermost frame knows those that have been defined, and nothing is bound to the names of the
others (`Frame.Knows`).
-/

namespace TexTree

/-- A text without white space is not trimmed. -/
theorem Text.trim_eq {text : String}
    (solid : ∀ character ∈ text.toList, isBlank character = false) : trim text = text := by
  have kept : ∀ characters : List Char, (∀ character ∈ characters, isBlank character = false) →
      characters.dropWhile isBlank = characters := by
    intro characters allSolid
    cases characters with
    | nil => rfl
    | cons first rest => simp [allSolid first List.mem_cons_self]
  have solidBack : ∀ character ∈ text.toList.reverse, isBlank character = false :=
    fun character member => solid character (List.mem_reverse.mp member)
  rw [trim, trimList, kept _ solid, kept _ solidBack, List.reverse_reverse, String.ofList_toList]

/-- The tokens of a name are displayed as the name. -/
theorem Engine.displayList_nameTokens (name : String) :
    Token.displayList (nameTokens name) = name := by
  have joined : ∀ characters : List Char,
      String.join ((characters.map Token.letter).map Token.display) =
        String.ofList characters := by
    intro characters
    induction characters with
    | nil => rfl
    | cons first rest ih =>
        rw [List.map_cons, List.map_cons, String.join_cons, ih]
        apply String.toList_injective
        simp [Token.display, Token.letter, Token.ofChar]
  rw [Token.displayList, nameTokens, joined, String.ofList_toList]

namespace Definition

/-- The definition takes no arguments and is replaced by letters. -/
structure Writes (rule : Definition) (code : List Char) : Prop where
  origin : rule.origin = .newCommand
  signature : rule.signature = []
  replaced : (rule.apply []).map Token.bare = code.map Token.letter

variable {tokens : List Token} {code : List Char} {rule : Definition}

/-- A replacement text without parameter characters stands for itself. -/
theorem bodyOf_eq (plain : ∀ token ∈ tokens, isParameter token = false) :
    bodyOf tokens = (tokens.map .token, []) := by
  induction tokens with
  | nil => rfl
  | cons token rest ih =>
      have isPlain := plain token List.mem_cons_self
      have behind := ih fun other member => plain other (List.mem_cons_of_mem token member)
      cases rest with
      | nil => simp [bodyOf, isPlain]
      | cons next rest =>
          rw [bodyOf.eq_def]
          simp [isPlain, behind]

theorem substitute_tokens (arguments : List (List Token)) (tokens : List Token) :
    substitute arguments (tokens.map .token) = tokens := by
  induction tokens with
  | nil => rfl
  | cons token rest ih => rw [List.map_cons, substitute, ih]

/-- Letters in braces make such a definition, and nothing is reported. -/
theorem writes_ofCommand (letters : tokens.map Token.bare = code.map Token.letter)
    (name : String) (fallback : Option (List Token)) :
    (ofCommand name 0 fallback tokens).1.Writes code ∧
      (ofCommand name 0 fallback tokens).2 = [] := by
  have plain : ∀ token ∈ tokens, isParameter token = false := by
    intro token member
    have listed : token.bare ∈ code.map Token.letter := letters ▸ List.mem_map_of_mem member
    obtain ⟨letter, _, equal⟩ := List.mem_map.mp listed
    have isLetter : token.category = .letter := (congrArg Token.category equal).symm
    simp [isParameter, isLetter]
  rw [ofCommand, bodyOf_eq plain]
  refine ⟨⟨rfl, rfl, ?_⟩, rfl⟩
  rw [apply, substitute_tokens]
  exact letters

/-- A call reads nothing. -/
theorem Writes.readArguments (writes : rule.Writes code) (table : CategoryTable)
    (command : String) (input : Input) :
    rule.readArguments table command input = (.ok [], input) := by
  have noArguments : rule.arity = 0 := by rw [arity, writes.signature]; rfl
  rw [Definition.readArguments, writes.origin, noArguments]
  cases rule.fallback <;> rfl

end Definition

namespace Builtin

/-- The names that definitions, pairs and groups depend on. -/
def structureNames : List String := ["begin", "end", "newenvironment", "egroup", "endgroup"]

theorem meaning?_newenvironment :
    meaning? "newenvironment" =
      some (.primitive "newenvironment" (.action .newEnvironment)) := by
  rw [meaning?_eq]
  rfl

/-- None of these names is that of an environment of a user. -/
theorem meaning?_structureNames :
    ∀ name ∈ structureNames, ∃ behaviour, meaning? name = some (.primitive name behaviour) := by
  simp only [structureNames, List.forall_mem_cons, meaning?_eq]
  exact ⟨⟨_, rfl⟩, ⟨_, rfl⟩, ⟨_, rfl⟩, ⟨_, rfl⟩, ⟨_, rfl⟩, by simp⟩

/-- The printed forms of counters have other names. -/
theorem ne_of_mem_structureNames {name : String} (member : name ∈ structureNames)
    (counter : String) : "the" ++ counter ≠ name := by
  have other : ∀ name ∈ structureNames, name.toList.take 3 ≠ "the".toList := by decide
  rintro rfl
  exact other _ member (by rw [String.toList_append]; rfl)

end Builtin

namespace Frame

/-- The outermost frame while environments are defined: it knows those that have been
defined, and nothing is bound to the names of those that have not. -/
structure Knows (defined pending : List Custom) (frame : Frame) : Prop where
  categories : frame.categories = .initial
  aliases : ∀ name, frame.aliases.get? name = none
  commands : ∀ name ∈ Builtin.structureNames,
    frame.commands.get? name = Builtin.meaning? name
  defined : ∀ environment ∈ defined, ∃ opening closing : Definition,
    frame.commands.get? environment.name = some (.environment environment.name opening closing) ∧
      opening.Writes environment.opening ∧ closing.Writes environment.closing
  pending : ∀ environment ∈ pending, frame.commands.get? environment.name = none

variable {defined pending : List Custom} {environment : Custom} {frame : Frame}

/-- An environment that has not been defined has another name. -/
theorem Knows.ne_of_pending (knows : frame.Knows defined pending)
    (member : environment ∈ pending) :
    ∀ name ∈ Builtin.structureNames, environment.name ≠ name := by
  rintro _ isListed rfl
  obtain ⟨behaviour, meaning⟩ := Builtin.meaning?_structureNames _ isListed
  rw [← knows.commands _ isListed, knows.pending environment member] at meaning
  cases meaning

/-- An environment that has been defined has another name. -/
theorem Knows.ne_of_defined (knows : frame.Knows defined pending)
    (member : environment ∈ defined) :
    ∀ name ∈ Builtin.structureNames, environment.name ≠ name := by
  rintro _ isListed rfl
  obtain ⟨behaviour, meaning⟩ := Builtin.meaning?_structureNames _ isListed
  obtain ⟨_, _, bound, _⟩ := knows.defined environment member
  rw [← knows.commands _ isListed, bound] at meaning
  cases meaning

/-- What matters is only which environments have been defined. -/
theorem Knows.subset (knows : frame.Knows defined pending) {fewer : List Custom}
    (subset : fewer ⊆ defined) : frame.Knows fewer pending :=
  ⟨knows.categories, knows.aliases, knows.commands,
    fun other member => knows.defined other (subset member), knows.pending⟩

/-- The next environment is defined. -/
theorem Knows.bind (knows : frame.Knows defined (environment :: pending))
    (distinct : ∀ other ∈ pending, other.name ≠ environment.name)
    {opening closing : Definition} (opens : opening.Writes environment.opening)
    (closes : closing.Writes environment.closing) :
    (frame.bind environment.name (.environment environment.name opening closing)).Knows
      (environment :: defined) pending := by
  have unbound := knows.pending environment List.mem_cons_self
  refine ⟨knows.categories, ?_, ?_, ?_, ?_⟩
  · intro name
    rw [Frame.bind, Table.get?_erase, knows.aliases, ite_self]
  · intro name member
    rw [Frame.bind, Table.get?_insert, if_neg (knows.ne_of_pending List.mem_cons_self name member),
      knows.commands name member]
  · intro other member
    by_cases same : environment.name = other.name
    · rcases List.mem_cons.mp member with rfl | old
      · refine ⟨opening, closing, ?_, opens, closes⟩
        rw [Frame.bind, Table.get?_insert, if_pos rfl]
      · obtain ⟨_, _, bound, _⟩ := knows.defined other old
        rw [← same, unbound] at bound
        cases bound
    · rcases List.mem_cons.mp member with rfl | old
      · exact absurd rfl same
      · obtain ⟨rule, rule', bound, writes⟩ := knows.defined other old
        refine ⟨rule, rule', ?_, writes⟩
        rw [Frame.bind, Table.get?_insert, if_neg same, bound]
  · intro other member
    rw [Frame.bind, Table.get?_insert, if_neg (Ne.symm (distinct other member)),
      knows.pending other (List.mem_cons_of_mem environment member)]

end Frame

end TexTree
