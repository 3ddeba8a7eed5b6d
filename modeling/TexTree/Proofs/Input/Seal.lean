import TexTree.Proofs.Input.Stream

/-!
# Token lists on top of the input

A token list that is read in place of the input lies on top of it.  As long as it is
not used up, reading and pushing tokens changes the list and nothing below it.  To say
so it is convenient to have a token list on top in any case, even if it has no tokens
(`Input.lifted`).

A reader that passes over a group must find its end inside of the list.  This is so if
every brace that is opened in the list is closed in it (`Input.closesBraces`).
-/

namespace TexTree.Input

variable {table : CategoryTable} {below : Input}

/-- The same input with a token list on top, which has no tokens unless it was there
before. -/
def lifted (input : Input) : Input :=
  match input.sources with
  | .tokens _ :: _ => input
  | sources => ⟨.tokens [] :: sources⟩

theorem exists_lifted (input : Input) :
    ∃ pending rest, input.lifted = ⟨.tokens pending :: rest⟩ := by
  obtain ⟨sources⟩ := input
  match sources with
  | [] => exact ⟨[], [], rfl⟩
  | .tokens pending :: rest => exact ⟨pending, rest, rfl⟩
  | .text reader :: rest => exact ⟨[], .text reader :: rest, rfl⟩

/-- A token list without tokens makes no difference to reading. -/
theorem next_lifted (input : Input) : input.lifted.next table = input.next table := by
  obtain ⟨sources⟩ := input
  match sources with
  | [] => rfl
  | .tokens pending :: rest => rfl
  | .text reader :: rest => rfl

/-- The input with a token list on top and further tokens in front of it. -/
def under (below : Input) (tokens : List Token) : Input := below.lifted.pushTokens tokens

theorem under_nil : below.under [] = below.lifted := by
  simp [under, pushTokens]

theorem pushTokens_eq_under (first : Token) (tokens : List Token) :
    below.pushTokens (first :: tokens) = below.under (first :: tokens) := by
  obtain ⟨sources⟩ := below
  match sources with
  | [] => simp [under, lifted, pushTokens]
  | .tokens pending :: rest => rfl
  | .text reader :: rest => simp [under, lifted, pushTokens]

theorem pushTokens_under (tokens others : List Token) :
    (below.under others).pushTokens tokens = below.under (tokens ++ others) := by
  obtain ⟨pending, rest, equal⟩ := exists_lifted below
  unfold under
  rw [equal]
  cases tokens with
  | nil => rfl
  | cons first more =>
      cases others with
      | nil => simp [pushTokens]
      | cons second others => simp [pushTokens]

theorem putBack_under (token : Token) (others : List Token) :
    (below.under others).putBack token = below.under (token :: others) :=
  pushTokens_under [token] others

theorem next_under (token : Token) (others : List Token) :
    (below.under (token :: others)).next table = (some token, below.under others) := by
  obtain ⟨pending, rest, equal⟩ := exists_lifted below
  unfold under
  rw [equal]
  cases others with
  | nil => rfl
  | cons second others => rfl

/-! ## Groups in a token list -/

/-- Whether a group that is open before the tokens, with so many further groups open
inside of it, is closed by one of them. -/
def closesGroup : Nat → List Token → Bool
  | _, [] => false
  | depth, token :: rest =>
      match token.category, depth with
      | .endGroup, 0 => true
      | .endGroup, depth + 1 => closesGroup depth rest
      | .beginGroup, depth => closesGroup (depth + 1) rest
      | _, depth => closesGroup depth rest

/-- Whether every brace that is opened in the list is closed in it. -/
def closesBraces : List Token → Bool
  | [] => true
  | token :: rest => (token.category != .beginGroup || closesGroup 0 rest) && closesBraces rest

theorem closesGroup_append {depth : Nat} {first : List Token} (second : List Token)
    (closes : closesGroup depth first = true) : closesGroup depth (first ++ second) = true := by
  fun_induction closesGroup depth first with
  | case1 => cases closes
  | case2 token rest isEnd =>
      simp [closesGroup, isEnd]
  | case3 token rest depth isEnd ih =>
      simp [closesGroup, isEnd, ih closes]
  | case4 token rest depth isBegin ih =>
      simp [closesGroup, isBegin, ih closes]
  | case5 token rest depth notEnd notClosing notBegin ih =>
      rw [List.cons_append, closesGroup.eq_def]
      dsimp only
      split <;> simp_all

theorem closesBraces_append {first second : List Token} (before : closesBraces first = true)
    (behind : closesBraces second = true) : closesBraces (first ++ second) = true := by
  induction first with
  | nil => exact behind
  | cons token rest ih =>
      rw [closesBraces, Bool.and_eq_true, Bool.or_eq_true] at before
      rw [List.cons_append, closesBraces, Bool.and_eq_true, Bool.or_eq_true]
      exact ⟨before.1.imp id (closesGroup_append second), ih before.2⟩

theorem closesBraces_of_append {first second : List Token}
    (whole : closesBraces (first ++ second) = true) : closesBraces second = true := by
  induction first with
  | nil => exact whole
  | cons token rest ih =>
      rw [List.cons_append, closesBraces, Bool.and_eq_true] at whole
      exact ih whole.2

theorem closesBraces_of_forall {tokens : List Token}
    (each : ∀ token ∈ tokens, token.category ≠ .beginGroup) : closesBraces tokens = true := by
  induction tokens with
  | nil => rfl
  | cons token rest ih =>
      rw [List.forall_mem_cons] at each
      simp [closesBraces, each.1, ih each.2]

/-- A group that is closed in the list is read from the list. -/
theorem group_under {depth : Nat} {tokens : List Token} (behind : List Token)
    (closes : closesGroup depth tokens = true) :
    ∃ inside rest, group table depth (below.under (tokens ++ behind)) =
      (some inside, below.under (rest ++ behind)) ∧ rest <:+ tokens := by
  have goesOn : ∀ {depth' : Nat} {token : Token} {others : List Token},
      (∃ inside rest, group table depth' (below.under (others ++ behind)) =
        (some inside, below.under (rest ++ behind)) ∧ rest <:+ others) →
      ∃ inside rest, prepend token (group table depth' (below.under (others ++ behind))) =
        (some inside, below.under (rest ++ behind)) ∧ rest <:+ token :: others := by
    rintro depth' token others ⟨inside, rest, read, suffix⟩
    exact ⟨token :: inside, rest, by rw [read]; rfl, suffix.trans (List.suffix_cons token others)⟩
  fun_induction closesGroup depth tokens with
  | case1 => cases closes
  | case2 token others isEnd =>
      refine ⟨[], others, ?_, List.suffix_cons token others⟩
      rw [List.cons_append, group_next (next_under token _), isEnd]
  | case3 token others depth isEnd ih =>
      rw [List.cons_append, group_next (next_under token _), isEnd]
      exact goesOn (ih closes)
  | case4 token others depth isBegin ih =>
      rw [List.cons_append, group_next (next_under token _), isBegin]
      exact goesOn (ih closes)
  | case5 token others depth notEnd notClosing notBegin ih =>
      rw [List.cons_append, group_next (next_under token _)]
      split
      · simp_all
      · simp_all
      · simp_all
      · exact goesOn (ih closes)

/-! ## Arguments in a token list

The marker that ends the list is not taken for an argument. -/

section Marker

variable {marker : Token}

/-- One step of skipping spaces. -/
theorem skipSpaces_next {input rest : Input} {token : Token}
    (found : input.next table = (some token, rest)) :
    skipSpaces table input =
      if token.category = .space then skipSpaces table rest else rest.putBack token := by
  rw [skipSpaces]
  split
  · next equal =>
      rw [found] at equal
      cases equal
  · next equal =>
      rw [found] at equal
      cases equal
      rfl

/-- One step of passing over tokens. -/
theorem throughToken_next {stop : Token → Bool} {input rest : Input} {token : Token}
    (found : input.next table = (some token, rest)) :
    throughToken table stop input =
      if stop token then ([], some token, rest)
      else (token :: (throughToken table stop rest).1, (throughToken table stop rest).2) := by
  rw [throughToken]
  split
  · next equal =>
      rw [found] at equal
      cases equal
  · next equal =>
      rw [found] at equal
      cases equal
      rfl

theorem skipSpaces_under (notSpace : marker.category ≠ .space) (tokens : List Token) :
    ∃ rest, skipSpaces table (below.under (tokens ++ [marker])) =
      below.under (rest ++ [marker]) ∧ rest <:+ tokens := by
  induction tokens with
  | nil =>
      refine ⟨[], ?_, List.nil_suffix⟩
      rw [List.nil_append, skipSpaces_next (next_under marker _), if_neg notSpace, putBack_under]
  | cons token tokens ih =>
      rw [List.cons_append, skipSpaces_next (next_under token _)]
      split
      · obtain ⟨rest, skipped, suffix⟩ := ih
        exact ⟨rest, skipped, suffix.trans (List.suffix_cons token tokens)⟩
      · exact ⟨token :: tokens, putBack_under token _, List.suffix_rfl⟩

/-- A name that is read from the list leaves the marker in its place. -/
theorem nameArgument_under {tokens : List Token} (isMarker : marker.category = .endOfList)
    (closes : closesBraces tokens = true)
    (noFormula : ∀ token ∈ tokens, token.category ≠ .mathShift) {name : String} {input : Input}
    (found : nameArgument table (below.under (tokens ++ [marker])) = (.ok name, input)) :
    ∃ rest, input = below.under (rest ++ [marker]) ∧ rest <:+ tokens := by
  have notSpace : marker.category ≠ .space := by simp [isMarker]
  obtain ⟨rest, skipped, before, rfl⟩ := skipSpaces_under notSpace tokens
  have closesRest := closesBraces_of_append closes
  rw [nameArgument, argument, skipped] at found
  cases rest with
  | nil =>
      rw [List.nil_append, next_under] at found
      simp [isMarker] at found
  | cons token rest =>
      rw [List.cons_append, next_under] at found
      simp only at found
      split at found
      · next equal =>
          -- The argument was found: a group, which is closed in the list, or one token.
          obtain ⟨-, rfl⟩ := Prod.mk.inj found
          split at equal
          · next opens =>
              rw [closesBraces, opens, Bool.and_eq_true] at closesRest
              obtain ⟨inside, behind, read, suffix⟩ :=
                group_under [marker] (by simpa using closesRest.1)
              rw [read] at equal
              obtain ⟨-, rfl⟩ := Prod.mk.inj equal
              refine ⟨behind, rfl, ?_⟩
              exact (suffix.trans (List.suffix_cons token rest)).trans
                (List.suffix_append before (token :: rest))
          · cases equal
          · cases equal
          · next isShift => exact absurd isShift (noFormula token (by simp))
          · obtain ⟨-, rfl⟩ := Prod.mk.inj equal
            refine ⟨rest, rfl, ?_⟩
            exact (List.suffix_cons token rest).trans (List.suffix_append before (token :: rest))
      · cases found
      · cases found

/-- What stands before the first accepted token of the list is passed over. -/
theorem throughToken_under {stop : Token → Bool} {tokens : List Token}
    (passed : ∀ token ∈ tokens, stop token = false) (stops : stop marker = true) :
    throughToken table stop (below.under (tokens ++ [marker])) =
      (tokens, some marker, below.lifted) := by
  induction tokens with
  | nil =>
      rw [List.nil_append, throughToken_next (next_under marker _), if_pos stops, under_nil]
  | cons token tokens ih =>
      rw [List.forall_mem_cons] at passed
      rw [List.cons_append, throughToken_next (next_under token _), ih passed.2]
      simp [passed.1]

end Marker

end TexTree.Input
