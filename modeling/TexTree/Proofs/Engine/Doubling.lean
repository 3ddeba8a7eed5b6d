import Mathlib.Data.List.Chain
import TexTree.Proofs.Engine.Defining
import TexTree.Proofs.Input.Grouping
import TexTree.Proofs.Scope.Locality

/-!
# Doubled parameter characters

In a replacement text, a parameter character that stands for itself is written twice, so that a
definition inside of another one has all its parameter characters doubled.  The doubling is
undone in two ways.  A replacement text makes one character of each pair, and whatever the
arguments are, it is replaced by the tokens that were doubled (`iterate_substitute_doubled` for
any number of levels).  A definition whose parameter text shows that all of it was doubled is
normalized: each run of parameter characters is halved, which leads back to the tokens where
the characters of a run are the same (`map_bare_normalize_doubled`).
-/

namespace TexTree

namespace Definition

variable {tokens : List Token}

/-- Write every parameter character twice. -/
def doubled (tokens : List Token) : List Token :=
  tokens.flatMap fun token => if isParameter token then [token, token] else [token]

@[simp] theorem doubled_nil : doubled [] = [] := rfl

theorem doubled_cons (token : Token) (rest : List Token) :
    doubled (token :: rest) =
      if isParameter token then token :: token :: doubled rest else token :: doubled rest := by
  rw [doubled, List.flatMap_cons]
  split <;> rfl

theorem doubled_append (first second : List Token) :
    doubled (first ++ second) = doubled first ++ doubled second := List.flatMap_append

theorem doubled_parameter {token : Token} (isDoubled : isParameter token = true)
    (rest : List Token) : doubled (token :: rest) = token :: token :: doubled rest := by
  rw [doubled_cons, if_pos isDoubled]

theorem doubled_plain {token : Token} (plain : isParameter token = false) (rest : List Token) :
    doubled (token :: rest) = token :: doubled rest := by
  rw [doubled_cons, plain, if_neg (by simp)]

/-! ## Replacement texts -/

/-- In a replacement text, a doubled parameter character stands for a single one. -/
theorem bodyOf_doubled (tokens : List Token) :
    bodyOf (doubled tokens) = (tokens.map .token, []) := by
  induction tokens with
  | nil => rfl
  | cons token rest ih =>
      cases isDoubled : isParameter token with
      | true =>
          rw [doubled_parameter isDoubled, bodyOf.eq_def]
          simp [isDoubled, ih]
      | false =>
          rw [doubled_plain isDoubled]
          cases behind : doubled rest with
          | nil =>
              rw [behind] at ih
              have isEnd : rest.map DefinitionItem.token = [] := (Prod.mk.inj ih).1.symm
              simp [bodyOf, isDoubled, isEnd]
          | cons next more =>
              rw [behind] at ih
              rw [bodyOf.eq_def]
              simp [isDoubled, ih]

/-- What a macro is replaced by whose replacement text has been doubled. -/
theorem substitute_bodyOf_doubled (arguments : List (List Token)) (tokens : List Token) :
    substitute arguments (bodyOf (doubled tokens)).1 = tokens := by
  rw [bodyOf_doubled, substitute_tokens]

/-- One level of doubling is undone by each replacement. -/
theorem iterate_substitute_doubled (arguments : List (List Token)) (levels : Nat)
    (tokens : List Token) :
    (fun body => substitute arguments (bodyOf body).1)^[levels] (doubled^[levels] tokens) =
      tokens := by
  have inverse : Function.LeftInverse (fun body => substitute arguments (bodyOf body).1) doubled :=
    substitute_bodyOf_doubled arguments
  exact inverse.iterate levels tokens

/-! ## Runs of parameter characters -/

/-- Parameter characters that follow each other are the same. -/
def Alike (tokens : List Token) : Prop :=
  tokens.IsChain fun first second =>
    isParameter first = true → isParameter second = true → first.bare = second.bare

theorem alike_of_forall (same : ∀ first ∈ tokens, ∀ second ∈ tokens,
    isParameter first = true → isParameter second = true → first.same second = true) :
    Alike tokens := by
  refine (List.pairwise_of_forall_mem_list ?_).isChain
  intro first isFirst second isSecond isDoubled isDoubled'
  exact Token.same_eq_true_iff.mp (same first isFirst second isSecond isDoubled isDoubled')

/-- A run of parameter characters is halved, rounding up. -/
theorem normalize_run {token : Token} {run rest : List Token} (isDoubled : isParameter token = true)
    (inRun : ∀ other ∈ run, isParameter other = true)
    (ends : ∀ next ∈ rest.head?, isParameter next = false) :
    normalize (token :: (run ++ rest)) =
      List.replicate ((1 + run.length + 1) / 2) token ++ normalize rest := by
  have stops : rest.takeWhile isParameter = [] ∧ rest.dropWhile isParameter = rest := by
    cases rest with
    | nil => exact ⟨rfl, rfl⟩
    | cons next more => simp [ends next rfl]
  rw [normalize, if_pos isDoubled, List.takeWhile_append_of_pos inRun,
    List.dropWhile_append_of_pos inRun, stops.1, stops.2, List.append_nil]

theorem doubled_run {run : List Token} (inRun : ∀ other ∈ run, isParameter other = true) :
    (doubled run).length = 2 * run.length ∧ ∀ other ∈ doubled run, isParameter other = true := by
  induction run with
  | nil => simp
  | cons token run ih =>
      rw [List.forall_mem_cons] at inRun
      obtain ⟨isLength, all⟩ := ih inRun.2
      rw [doubled_parameter inRun.1, List.length_cons, List.length_cons, isLength,
        List.length_cons]
      refine ⟨by omega, ?_⟩
      simpa [inRun.1] using all

theorem head?_doubled (tokens : List Token) : (doubled tokens).head? = tokens.head? := by
  cases tokens with
  | nil => rfl
  | cons token rest =>
      rw [doubled_cons]
      split <;> rfl

/-- The characters of a run are as its first one. -/
theorem Alike.map_bare_run {token : Token} {run rest : List Token}
    (alike : Alike (token :: (run ++ rest))) (isDoubled : isParameter token = true)
    (inRun : ∀ other ∈ run, isParameter other = true) :
    (List.replicate (run.length + 1) token).map Token.bare = (token :: run).map Token.bare := by
  induction run generalizing token with
  | nil => rfl
  | cons next run ih =>
      rw [List.forall_mem_cons] at inRun
      rw [Alike, List.cons_append, List.isChain_cons_cons] at alike
      have same := alike.1 isDoubled inRun.1
      have behind := ih alike.2 inRun.1 inRun.2
      simp only [List.map_replicate, List.map_cons, List.replicate_succ, List.length_cons,
        same] at behind ⊢
      simpa using behind

/-- The tokens begin with a run of parameter characters. -/
theorem exists_run (tokens : List Token) : ∃ run after, tokens = run ++ after ∧
    (∀ other ∈ run, isParameter other = true) ∧
    ∀ next ∈ after.head?, isParameter next = false := by
  refine ⟨tokens.takeWhile isParameter, tokens.dropWhile isParameter,
    List.takeWhile_append_dropWhile.symm, fun _ => List.mem_takeWhile_imp, fun next isHead => ?_⟩
  have stopped := List.head?_dropWhile_not isParameter tokens
  rw [isHead] at stopped
  simpa using stopped

/-- Normalizing undoes the doubling. -/
theorem map_bare_normalize_doubled (alike : Alike tokens) :
    (normalize (doubled tokens)).map Token.bare = tokens.map Token.bare := by
  -- By induction on the length, because a run is taken as a whole.
  induction size : tokens.length using Nat.strong_induction_on generalizing tokens with
  | _ size ih =>
      subst size
      cases tokens with
      | nil => simp [normalize]
      | cons token rest =>
          cases isDoubled : isParameter token with
          | false =>
              have alikeRest : Alike rest := alike.tail
              have behind := ih rest.length (Nat.lt_succ_self _) alikeRest rfl
              rw [doubled_plain isDoubled, normalize, isDoubled, if_neg (by simp), List.map_cons,
                behind, List.map_cons]
          | true =>
              obtain ⟨run, after, rfl, inRun, ends⟩ := exists_run rest
              have shorter : after.length < (token :: (run ++ after)).length := by
                rw [List.length_cons, List.length_append]
                omega
              have split : Alike ((token :: run) ++ after) := alike
              have alikeAfter : Alike after := split.right_of_append
              have behind := ih after.length shorter alikeAfter rfl
              obtain ⟨isLength, allDoubled⟩ := doubled_run inRun
              have halved : (1 + (token :: doubled run).length + 1) / 2 = run.length + 1 := by
                rw [List.length_cons, isLength]
                omega
              have inDoubled : ∀ other ∈ token :: doubled run, isParameter other = true :=
                List.forall_mem_cons.mpr ⟨isDoubled, allDoubled⟩
              have endsDoubled : ∀ next ∈ (doubled after).head?, isParameter next = false := by
                rwa [head?_doubled]
              rw [doubled_parameter isDoubled, doubled_append, ← List.cons_append,
                normalize_run isDoubled inDoubled endsDoubled, halved, List.map_append, behind,
                alike.map_bare_run isDoubled inRun, ← List.map_append, List.cons_append]

/-! ## Parameter texts -/

/-- The token is a digit from one to nine, and no parameter character itself. -/
def IsDigit (token : Token) : Prop :=
  parameterNumber? token ≠ none ∧ isParameter token = false

/-- A parameter text: it holds no brace that begins a group, there is a parameter, and every
parameter character is followed by a digit. -/
structure ParameterText (tokens : List Token) : Prop where
  noGroup : ∀ token ∈ tokens, token.category ≠ .beginGroup
  numbered : ∀ before token behind, tokens = before ++ token :: behind →
    isParameter token = true → ∃ digit ∈ behind.head?, IsDigit digit
  hasParameter : ∃ token ∈ tokens, isParameter token = true

theorem ParameterText.getLast? (isText : ParameterText tokens) :
    tokens.getLast?.any isParameter = false := by
  cases isLast : tokens.getLast? with
  | none => rfl
  | some last =>
      obtain ⟨before, rfl⟩ := List.getLast?_eq_some_iff.mp isLast
      cases isDoubled : isParameter last with
      | false => simp [isDoubled]
      | true =>
          obtain ⟨digit, isHead, -⟩ := isText.numbered before last [] rfl isDoubled
          cases isHead

/-- No two parameter characters follow each other. -/
theorem ParameterText.isChain (isText : ParameterText tokens) :
    tokens.IsChain fun first second => isParameter first = true → isParameter second = false := by
  rw [List.isChain_iff_forall_rel_of_append_cons_cons]
  rintro first second before behind isSplit isDoubled
  obtain ⟨digit, isHead, isDigit⟩ := isText.numbered before first _ isSplit isDoubled
  obtain rfl : second = digit := Option.some.inj isHead
  exact isDigit.2

theorem ParameterText.alike (isText : ParameterText tokens) : Alike tokens := by
  refine isText.isChain.imp fun first second follows isDoubled isDoubled' => ?_
  rw [follows isDoubled] at isDoubled'
  cases isDoubled'

theorem hasDoubled_eq_false (follows : tokens.IsChain fun first second =>
    isParameter first = true → isParameter second = false) : hasDoubled tokens = false := by
  induction tokens with
  | nil => rfl
  | cons first rest ih =>
      cases rest with
      | nil => rfl
      | cons second rest =>
          rw [List.isChain_cons_cons] at follows
          rw [hasDoubled, ih follows.2, Bool.or_false, Bool.and_eq_false_imp]
          exact follows.1

theorem hasDoubled_doubled (hasParameter : ∃ token ∈ tokens, isParameter token = true) :
    hasDoubled (doubled tokens) = true := by
  induction tokens with
  | nil => simp at hasParameter
  | cons token rest ih =>
      cases isDoubled : isParameter token with
      | true =>
          rw [doubled_parameter isDoubled, hasDoubled, isDoubled]
          rfl
      | false =>
          have inRest : ∃ token ∈ rest, isParameter token = true := by
            simpa [isDoubled] using hasParameter
          have found := ih inRest
          rw [doubled_plain isDoubled]
          cases behind : doubled rest with
          | nil =>
              rw [behind] at found
              cases found
          | cons next more =>
              rw [hasDoubled, ← behind, found, Bool.or_true]

theorem getLast?_doubled (tokens : List Token) : (doubled tokens).getLast? = tokens.getLast? := by
  induction tokens using List.reverseRecOn with
  | nil => rfl
  | append_singleton before last _ =>
      rw [doubled_append, doubled_cons]
      split <;> simp

theorem mem_doubled {token : Token} : token ∈ doubled tokens ↔ token ∈ tokens := by
  rw [doubled, List.mem_flatMap]
  constructor
  · rintro ⟨other, member, same⟩
    split at same <;> simp_all
  · refine fun member => ⟨token, member, ?_⟩
    split <;> simp

/-! ## Positions -/

@[simp] theorem isParameter_bare (token : Token) : isParameter token.bare = isParameter token := rfl

@[simp] theorem parameterNumber?_bare (token : Token) :
    parameterNumber? token.bare = parameterNumber? token := rfl

theorem map_bare_normalize (tokens : List Token) :
    (normalize tokens).map Token.bare = normalize (tokens.map Token.bare) := by
  have runs : ∀ rest : List Token,
      (rest.map Token.bare).takeWhile isParameter = (rest.takeWhile isParameter).map Token.bare ∧
      (rest.map Token.bare).dropWhile isParameter = (rest.dropWhile isParameter).map Token.bare :=
    fun rest => ⟨List.takeWhile_map .., List.dropWhile_map ..⟩
  fun_induction normalize tokens with
  | case1 => simp [normalize]
  | case2 token rest isDoubled run ih =>
      rw [List.map_append, ih, List.map_cons, normalize, (runs rest).1, (runs rest).2,
        List.length_map, List.map_replicate, isParameter_bare, if_pos isDoubled]
  | case3 token rest plain ih =>
      rw [List.map_cons, ih, List.map_cons, normalize, isParameter_bare, if_neg plain]

end Definition

namespace DefinitionItem

/-- The item without the position of its token. -/
def bare : DefinitionItem → DefinitionItem
  | .parameter number => .parameter number
  | .token inner => .token inner.bare

theorem same_eq_true_iff {left right : DefinitionItem} :
    left.same right = true ↔ left.bare = right.bare := by
  cases left <;> cases right <;> simp [same, bare, Token.same_eq_true_iff]

theorem sameList_eq_true_iff {left right : List DefinitionItem} :
    sameList left right = true ↔ left.map bare = right.map bare := by
  induction left generalizing right with
  | nil => cases right <;> simp [sameList]
  | cons first rest ih =>
      cases right with
      | nil => simp [sameList]
      | cons other others =>
          simp only [sameList, Bool.and_eq_true, same_eq_true_iff, ih, List.map_cons,
            List.cons.injEq]

end DefinitionItem

namespace Definition

theorem map_bare_signatureOf (tokens : List Token) :
    (signatureOf tokens).1.map DefinitionItem.bare = (signatureOf (tokens.map Token.bare)).1 := by
  fun_induction signatureOf tokens <;> simp_all [signatureOf, DefinitionItem.bare]

theorem map_bare_substitute (arguments : List (List Token)) (items : List DefinitionItem) :
    (substitute arguments items).map Token.bare =
      substitute (arguments.map (·.map Token.bare)) (items.map DefinitionItem.bare) := by
  induction items with
  | nil => rfl
  | cons item rest ih =>
      cases item with
      | token inner => simp [substitute, DefinitionItem.bare, ih]
      | parameter number =>
          simp only [substitute, DefinitionItem.bare, List.map_append, List.map_cons, ih,
            List.getD_eq_getElem?_getD, List.getElem?_map]
          cases arguments[number - 1]? <;> rfl

theorem map_bare_bodyOf (tokens : List Token) :
    (bodyOf tokens).1.map DefinitionItem.bare = (bodyOf (tokens.map Token.bare)).1 := by
  fun_induction bodyOf tokens <;> simp_all [bodyOf, DefinitionItem.bare]

end Definition

end TexTree
