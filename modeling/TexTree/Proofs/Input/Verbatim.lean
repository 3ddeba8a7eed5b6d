import TexTree.Proofs.Input.Lines

/-!
# Reading verbatim

A verbatim text ends in front of the first occurrence of a mark (`Text.FirstAt`).  Pending
tokens are searched one after the other, with everything in front of them, and so is the text
below them, but each of the two on its own: the mark is found in the tokens or in the text,
not across the boundary between them (`Input.verbatim_ends_first_iff`).  Where it stands there,
reading goes on to the first occurrence in the text alone.
-/

namespace TexTree

namespace Text

variable {mark text before after first second : List Char}

/-- The first occurrence of a mark in a text stands between these two parts of it. -/
structure FirstAt (mark text before after : List Char) : Prop where
  parts : text = before ++ mark ++ after
  earliest : ∀ early late, text = early ++ mark ++ late → before.length ≤ early.length

namespace FirstAt

/-- There is only one first occurrence. -/
theorem unique {before' after' : List Char} (one : FirstAt mark text before after)
    (two : FirstAt mark text before' after') : before = before' ∧ after = after' := by
  have sameLength : before.length = before'.length :=
    Nat.le_antisymm (one.earliest _ _ two.parts) (two.earliest _ _ one.parts)
  have same : before ++ (mark ++ after) = before' ++ (mark ++ after') := by
    rw [← List.append_assoc, ← one.parts, two.parts, List.append_assoc]
  obtain ⟨sameBefore, sameRest⟩ := List.append_inj same sameLength
  exact ⟨sameBefore, List.append_cancel_left sameRest⟩

/-- The first occurrence in a text is the first one in every text that goes on behind it. -/
theorem extend (found : FirstAt mark text before after) (more : List Char) :
    FirstAt mark (text ++ more) before (after ++ more) where
  parts := by rw [found.parts, List.append_assoc _ after more]
  earliest := by
    intro early late equal
    by_contra isEarlier
    -- An earlier occurrence would end within the text.
    have fits : (early ++ mark).length ≤ text.length := by
      have length := congrArg List.length found.parts
      simp only [List.length_append] at length ⊢
      omega
    obtain ⟨rest, isRest⟩ := List.prefix_of_prefix_length_le
      (show early ++ mark <+: text ++ more from ⟨late, equal.symm⟩)
      (List.prefix_append text more) fits
    exact isEarlier (found.earliest early rest isRest.symm)

/-- An occurrence that ends in the first part of a text is the first one there. -/
theorem within (found : FirstAt mark (first ++ second) before after)
    (fits : before.length + mark.length ≤ first.length) :
    ∃ rest, after = rest ++ second ∧ FirstAt mark first before rest := by
  obtain ⟨rest, isFirst⟩ := List.prefix_of_prefix_length_le
    (show before ++ mark <+: first ++ second from ⟨after, found.parts.symm⟩)
    (List.prefix_append first second) (by rwa [List.length_append])
  refine ⟨rest, ?_, isFirst.symm, fun early late equal => ?_⟩
  · have parts := found.parts
    rw [← isFirst, List.append_assoc (before ++ mark)] at parts
    exact (List.append_cancel_left parts).symm
  · refine found.earliest early (late ++ second) ?_
    rw [equal, List.append_assoc _ late second]

/-- An occurrence behind the first part of a text is the first one in the second part. -/
theorem behind (found : FirstAt mark (first ++ second) before after)
    (isBehind : first.length ≤ before.length) :
    ∃ rest, before = first ++ rest ∧ FirstAt mark second rest after := by
  obtain ⟨rest, rfl⟩ := List.prefix_of_prefix_length_le (List.prefix_append first second)
    (show before <+: first ++ second from
      ⟨mark ++ after, by rw [← List.append_assoc, ← found.parts]⟩) isBehind
  refine ⟨rest, rfl, ?_, fun early late equal => ?_⟩
  · have parts := found.parts
    rw [List.append_assoc, List.append_assoc] at parts
    rw [List.append_cancel_left parts, List.append_assoc]
  · have isEarliest := found.earliest (first ++ early) late (by
      rw [equal, List.append_assoc, List.append_assoc, List.append_assoc])
    rw [List.length_append, List.length_append] at isEarliest
    exact Nat.le_of_add_le_add_left isEarliest

/-- A part of the text that ends in front of the end of the first occurrence has none. -/
theorem absent (found : FirstAt mark (first ++ second) before after)
    (isShort : first.length < before.length + mark.length) : ¬mark <:+: first := by
  rintro ⟨early, late, equal⟩
  have isEarliest := found.earliest early (late ++ second) (by
    rw [← equal, List.append_assoc _ late second])
  have length := congrArg List.length equal
  simp only [List.length_append] at length
  omega

end FirstAt

end Text

open Text

/-! ## Texts -/

namespace Cursor

variable {cursor next : Cursor} {mark read text before after : List Char} {character : Char}

/-- The characters that are left. -/
def rest (cursor : Cursor) : List Char := cursor.lines.flatten

theorem next?_of_rest_cons (isRest : cursor.rest = character :: text) :
    ∃ next, cursor.next? = some (character, next) ∧ next.rest = text := by
  cases found : cursor.next? with
  | none =>
      have flat := next?_eq_none found
      rw [← rest, isRest] at flat
      cases flat
  | some pair =>
      obtain ⟨head, next⟩ := pair
      have flat := (next?_passes found).2.1
      rw [← rest, isRest] at flat
      cases flat
      exact ⟨next, rfl, rfl⟩

/-- One step of looking for a mark. -/
theorem until?_of_next? (found : cursor.next? = some (character, next)) :
    cursor.until? mark read =
      if mark.reverse.isPrefixOf (character :: read) then
        some (((character :: read).drop mark.length).reverse, next)
      else next.until? mark (character :: read) := by
  rw [until?]
  split
  · next equal =>
      rw [found] at equal
      cases equal
  · next equal =>
      rw [found] at equal
      cases equal
      rfl

/-- Reading ends where the mark ends. -/
theorem until?_ends (found : cursor.next? = some (character, next))
    (isRead : read.reverse ++ [character] = before ++ mark) :
    cursor.until? mark read = some (before, next) := by
  have reversed : character :: read = mark.reverse ++ before.reverse := by
    rw [← List.reverse_append, ← isRead, List.reverse_append, List.reverse_reverse]
    rfl
  have ends : mark.reverse.isPrefixOf (character :: read) = true :=
    List.isPrefixOf_iff_prefix.mpr ⟨before.reverse, reversed.symm⟩
  rw [until?_of_next? found, if_pos ends, reversed, ← List.length_reverse, List.drop_left,
    List.reverse_reverse]

/-- Reading goes on where the mark does not end. -/
theorem until?_goesOn (found : cursor.next? = some (character, next))
    (noEnd : ¬mark <:+ read.reverse ++ [character]) :
    cursor.until? mark read = next.until? mark (character :: read) := by
  have goesOn : ¬mark.reverse.isPrefixOf (character :: read) = true := by
    intro ends
    apply noEnd
    rw [← List.reverse_prefix, List.reverse_append, List.reverse_reverse]
    exact List.isPrefixOf_iff_prefix.mp ends
  rw [until?_of_next? found, if_neg goesOn]

/-- The text is read up to the end of the first occurrence of the mark, which does not end in
what has been read. -/
theorem until?_of_firstAt (absent : ¬mark <:+: read.reverse)
    (first : FirstAt mark (read.reverse ++ cursor.rest) before after) :
    ∃ next, cursor.until? mark read = some (before, next) ∧ next.rest = after := by
  induction isRest : cursor.rest generalizing cursor read with
  | nil =>
      rw [isRest, List.append_nil] at first
      exact absurd ⟨before, after, first.parts.symm⟩ absent
  | cons character text ih =>
      obtain ⟨next, found, isNext⟩ := next?_of_rest_cons isRest
      rw [isRest, ← List.singleton_append, ← List.append_assoc] at first
      by_cases ends : mark <:+ read.reverse ++ [character]
      · obtain ⟨early, isRead⟩ := ends
        -- The mark that ends here is the first one, since none has ended before.
        have notEarlier : before.length ≤ early.length := by
          refine first.earliest early text ?_
          rw [isRead]
        have notLater : early.length ≤ before.length := by
          by_contra isLater
          have length := congrArg List.length isRead
          simp only [List.length_append, List.length_reverse, List.length_singleton] at length
          rw [List.append_assoc] at first
          obtain ⟨rest, -, inside⟩ := first.within (by rw [List.length_reverse]; omega)
          exact absent ⟨before, rest, inside.parts.symm⟩
        have parts := first.parts
        rw [← isRead, List.append_assoc, List.append_assoc] at parts
        obtain ⟨rfl, sameRest⟩ := List.append_inj parts (Nat.le_antisymm notLater notEarlier)
        refine ⟨next, until?_ends found isRead.symm, ?_⟩
        rw [isNext, List.append_cancel_left sameRest]
      · rw [until?_goesOn found ends]
        refine ih ?_ ?_ isNext
        · rw [List.reverse_cons, List.infix_concat_iff]
          simp only [ends, absent, or_self, not_false_eq_true]
        · rwa [List.reverse_cons, isNext]

end Cursor

namespace Reader

variable {reader : Reader} {mark : String} {before after : List Char}

/-- The characters that are left. -/
def rest (reader : Reader) : List Char := reader.cursor.rest

/-- A text is read up to the first occurrence of a mark, which is passed. -/
theorem readUntil_of_firstAt (nonempty : mark ≠ "")
    (first : FirstAt mark.toList reader.rest before after) :
    ∃ next, reader.readUntil mark = (some (String.ofList before), next) ∧ next.rest = after := by
  have absent : ¬mark.toList <:+: [].reverse := by
    rw [List.reverse_nil, List.infix_nil, String.toList_eq_nil_iff]
    exact nonempty
  obtain ⟨cursor, isRead, isRest⟩ := Cursor.until?_of_firstAt absent
    (show FirstAt mark.toList ([].reverse ++ reader.cursor.rest) before after from first)
  refine ⟨{ reader with cursor, state := .midLine }, ?_, isRest⟩
  rw [readUntil, isRead]

end Reader

/-! ## Pending tokens -/

namespace Input

variable {mark read before after : List Char}

theorem splitAtMark?_eq_none_iff {text : List Char} :
    splitAtMark? mark text = none ↔ ¬mark <:+: text := by
  induction text with
  | nil => simp [splitAtMark?]
  | cons character text ih =>
      rw [splitAtMark?, List.infix_cons_iff]
      split
      · next starts => simp [List.isPrefixOf_iff_prefix.mp starts]
      · next later =>
          rw [List.isPrefixOf_iff_prefix] at later
          simp only [later, false_or, Option.map_eq_none_iff, ih]

/-- A text is cut at the first occurrence of the mark. -/
theorem firstAt_of_splitAtMark? {text : List Char}
    (found : splitAtMark? mark text = some (before, after)) : FirstAt mark text before after := by
  induction text generalizing before with
  | nil =>
      simp only [splitAtMark?] at found
      split at found
      · next isEmpty =>
          rw [List.isEmpty_iff] at isEmpty
          cases found
          exact ⟨by rw [isEmpty]; rfl, fun _ _ _ => Nat.zero_le _⟩
      · cases found
  | cons character text ih =>
      rw [splitAtMark?] at found
      split at found
      · next starts =>
          obtain ⟨rest, isText⟩ := List.isPrefixOf_iff_prefix.mp starts
          rw [← isText, List.drop_left] at found
          cases found
          exact ⟨isText.symm, fun _ _ _ => Nat.zero_le _⟩
      · next later =>
          rw [List.isPrefixOf_iff_prefix] at later
          simp only [Option.map_eq_some_iff, Prod.mk.injEq] at found
          obtain ⟨⟨inner, rest⟩, isInner, rfl, rfl⟩ := found
          have first := ih isInner
          refine ⟨by rw [first.parts]; rfl, fun early late equal => ?_⟩
          cases early with
          | nil => exact absurd ⟨late, equal.symm⟩ later
          | cons head early =>
              rw [List.cons_append, List.cons_append, List.cons.injEq] at equal
              exact Nat.succ_le_succ (first.earliest early late equal.2)

/-- The text of pending tokens. -/
def spelled (tokens : List Token) : List Char := tokens.flatMap fun token => token.display.toList

theorem spelled_append (first second : List Token) :
    spelled (first ++ second) = spelled first ++ spelled second := List.flatMap_append

/-- The tokens for a text have this text. -/
theorem spelled_ofText (text : List Char) : spelled (Token.ofText (String.ofList text)) = text := by
  rw [Token.ofText, String.toList_ofList, spelled, List.flatMap_map]
  induction text with
  | nil => rfl
  | cons character text ih =>
      rw [List.flatMap_cons, ih]
      refine congrArg (· ++ text) (?_ : _ = [character])
      split
      · next isSpace =>
          rw [beq_iff_eq] at isSpace
          rw [isSpace]
          rfl
      · split
        · exact String.toList_singleton character
        · exact String.toList_singleton character

/-- Without an occurrence of the mark, all pending tokens are taken. -/
theorem verbatimTokens_of_absent {tokens : List Token}
    (absent : ¬mark <:+: read ++ spelled tokens) :
    verbatimTokens mark tokens read = (read ++ spelled tokens, [], none) := by
  induction tokens generalizing read with
  | nil => rw [verbatimTokens, spelled, List.flatMap_nil, List.append_nil]
  | cons token tokens ih =>
      rw [spelled, List.flatMap_cons, ← List.append_assoc] at absent ⊢
      have notYet : splitAtMark? mark (read ++ token.display.toList) = none :=
        splitAtMark?_eq_none_iff.mpr fun occurs =>
          absent (occurs.trans (List.prefix_append _ _).isInfix)
      rw [verbatimTokens]
      simp only [notYet]
      exact ih absent

/-- The tokens are taken up to the one in which the first occurrence of the mark ends. -/
theorem verbatimTokens_of_firstAt {tokens : List Token} (absent : ¬mark <:+: read)
    (first : FirstAt mark (read ++ spelled tokens) before after) :
    ∃ passed pending rest,
      verbatimTokens mark tokens read = (passed, pending, some (before, rest)) ∧
      after = rest ++ spelled pending := by
  induction tokens generalizing read with
  | nil =>
      rw [spelled, List.flatMap_nil, List.append_nil] at first
      exact absurd ⟨before, after, first.parts.symm⟩ absent
  | cons token tokens ih =>
      rw [spelled, List.flatMap_cons, ← List.append_assoc] at first
      rw [verbatimTokens]
      cases found : splitAtMark? mark (read ++ token.display.toList) with
      | none =>
          simp only
          exact ih (splitAtMark?_eq_none_iff.mp found) first
      | some halves =>
          obtain ⟨early, rest⟩ := halves
          have inside := (firstAt_of_splitAtMark? found).extend (spelled tokens)
          obtain ⟨rfl, rfl⟩ := first.unique inside
          simp only
          exact ⟨_, tokens, rest, rfl, rfl⟩

variable {pending : List (List Token)} {reader : Reader} {below : List Source} {delimiter : String}

/-- Pending tokens over a text, and further sources below. -/
def stacked (pending : List (List Token)) (reader : Reader) (below : List Source) : Input :=
  ⟨pending.map .tokens ++ .text reader :: below⟩

theorem pushTokens_tokens (tokens left : List Token) (sources : List Source) :
    pushTokens ⟨.tokens left :: sources⟩ tokens = ⟨.tokens (tokens ++ left) :: sources⟩ := by
  cases tokens <;> rfl

/-- Where the pending tokens do not hold the mark, it is looked for in the text alone. -/
theorem readVerbatim_go_of_absent (read : List Char)
    (absent : ¬delimiter.toList <:+: read ++ spelled pending.flatten) :
    readVerbatim.go delimiter (stacked pending reader below).sources read =
      ((reader.readUntil delimiter).1.map
          (String.ofList (read ++ spelled pending.flatten) ++ ·),
        stacked [] (reader.readUntil delimiter).2 below) := by
  induction pending generalizing read with
  | nil => simp [stacked, readVerbatim.go, spelled]
  | cons tokens pending ih =>
      rw [List.flatten_cons, spelled_append, ← List.append_assoc] at absent ⊢
      have notHere : ¬delimiter.toList <:+: read ++ spelled tokens := fun occurs =>
        absent (occurs.trans (List.prefix_append _ _).isInfix)
      rw [stacked, List.map_cons, List.cons_append, readVerbatim.go,
        verbatimTokens_of_absent notHere]
      exact ih _ absent

/-- Where the pending tokens hold the mark, the rest of its token is put back. -/
theorem readVerbatim_go_of_firstAt (read : List Char) (absent : ¬delimiter.toList <:+: read)
    (first : FirstAt delimiter.toList (read ++ spelled pending.flatten) before after) :
    ∃ left, readVerbatim.go delimiter (stacked pending reader below).sources read =
        (some (String.ofList before), stacked left reader below) ∧
      spelled left.flatten = after := by
  induction pending generalizing read with
  | nil =>
      rw [List.flatten_nil, spelled, List.flatMap_nil, List.append_nil] at first
      exact absurd ⟨before, after, first.parts.symm⟩ absent
  | cons tokens pending ih =>
      rw [List.flatten_cons, spelled_append, ← List.append_assoc] at first
      rw [stacked, List.map_cons, List.cons_append, readVerbatim.go]
      by_cases occurs : delimiter.toList <:+: read ++ spelled tokens
      · obtain ⟨rest, rfl, inside⟩ := first.within
          (Nat.not_lt.mp fun isShort => first.absent isShort occurs)
        obtain ⟨passed, left, rest, isRead, rfl⟩ := verbatimTokens_of_firstAt absent inside
        rw [isRead]
        refine ⟨(Token.ofText (String.ofList rest) ++ left) :: pending, ?_, ?_⟩
        · simp only [pushTokens_tokens]
          rfl
        · rw [List.flatten_cons, spelled_append, spelled_append, spelled_ofText]
      · rw [verbatimTokens_of_absent occurs]
        exact ih _ occurs first

/-- A mark that starts in pending tokens and ends in the text below them. -/
def Straddles (mark pending before : List Char) : Prop :=
  before.length < pending.length ∧ pending.length < before.length + mark.length

theorem readVerbatim_of_absent (absent : ¬delimiter.toList <:+: spelled pending.flatten) :
    (stacked pending reader below).readVerbatim delimiter =
      ((reader.readUntil delimiter).1.map (String.ofList (spelled pending.flatten) ++ ·),
        stacked [] (reader.readUntil delimiter).2 below) :=
  readVerbatim_go_of_absent [] absent

/-- The first occurrence of the mark ends in the pending tokens. -/
theorem readVerbatim_within (nonempty : delimiter ≠ "")
    (first : FirstAt delimiter.toList (spelled pending.flatten) before after) :
    ∃ left, (stacked pending reader below).readVerbatim delimiter =
        (some (String.ofList before), stacked left reader below) ∧
      spelled left.flatten = after := by
  refine readVerbatim_go_of_firstAt [] ?_ first
  rwa [List.infix_nil, String.toList_eq_nil_iff]

/-- The first occurrence of the mark stands in the text below the pending tokens. -/
theorem readVerbatim_behind (nonempty : delimiter ≠ "")
    (absent : ¬delimiter.toList <:+: spelled pending.flatten)
    (first : FirstAt delimiter.toList reader.rest before after) :
    ∃ next, (stacked pending reader below).readVerbatim delimiter =
        (some (String.ofList (spelled pending.flatten ++ before)), stacked [] next below) ∧
      next.rest = after := by
  obtain ⟨next, isRead, isRest⟩ := Reader.readUntil_of_firstAt nonempty first
  refine ⟨next, ?_, isRest⟩
  rw [readVerbatim_of_absent absent, isRead, Option.map_some, ← String.ofList_append]

/-- Where the mark straddles the boundary, what is read does not end in front of it. -/
theorem readVerbatim_ne_of_straddles {left : List (List Token)} {next : Reader}
    (first : FirstAt delimiter.toList (spelled pending.flatten ++ reader.rest) before after)
    (straddles : Straddles delimiter.toList (spelled pending.flatten) before) :
    (stacked pending reader below).readVerbatim delimiter ≠
      (some (String.ofList before), stacked left next below) := by
  rw [readVerbatim_of_absent (first.absent straddles.2)]
  intro equal
  obtain ⟨text, -, isText⟩ := Option.map_eq_some_iff.mp (congrArg Prod.fst equal)
  have characters := congrArg String.toList isText
  rw [String.toList_append, String.toList_ofList, String.toList_ofList] at characters
  have isShort := straddles.1
  rw [← characters, List.length_append] at isShort
  omega

/-- Reading stops at the first occurrence of the mark in what is pending and the text below it,
and leaves exactly what is behind it, unless that occurrence starts in the pending tokens and
ends in the text.  In that case the text is read up to the first occurrence in it alone.  If
nothing is pending, the text is read as it is on its own. -/
theorem verbatim_ends_first_iff (below : List Source) (nonempty : delimiter ≠ "")
    (first : FirstAt delimiter.toList (spelled pending.flatten ++ reader.rest) before after) :
    ((∃ left next, (stacked pending reader below).readVerbatim delimiter =
          (some (String.ofList before), stacked left next below) ∧
        spelled left.flatten ++ next.rest = after) ↔
      ¬Straddles delimiter.toList (spelled pending.flatten) before) ∧
    (Straddles delimiter.toList (spelled pending.flatten) before →
      (stacked pending reader below).readVerbatim delimiter =
        ((reader.readUntil delimiter).1.map (String.ofList (spelled pending.flatten) ++ ·),
          stacked [] (reader.readUntil delimiter).2 below)) ∧
    (spelled pending.flatten = [] →
      (stacked pending reader below).readVerbatim delimiter =
        ((reader.readUntil delimiter).1, stacked [] (reader.readUntil delimiter).2 below)) := by
  have isMark : 0 < delimiter.toList.length := by
    rwa [List.length_pos_iff, ne_eq, String.toList_eq_nil_iff]
  refine ⟨⟨?_, ?_⟩, ?_, ?_⟩
  · rintro ⟨left, next, isRead, -⟩ straddles
    exact readVerbatim_ne_of_straddles first straddles isRead
  · intro inOne
    by_cases isWithin : before.length + delimiter.toList.length ≤ (spelled pending.flatten).length
    · obtain ⟨rest, rfl, inside⟩ := first.within isWithin
      obtain ⟨left, isRead, isLeft⟩ := readVerbatim_within nonempty inside
      exact ⟨left, reader, isRead, by rw [isLeft]⟩
    · have isBehind : (spelled pending.flatten).length ≤ before.length := by
        by_contra starts
        exact inOne ⟨Nat.not_le.mp starts, Nat.not_le.mp isWithin⟩
      have absent := first.absent (Nat.not_le.mp isWithin)
      obtain ⟨rest, rfl, outside⟩ := first.behind isBehind
      obtain ⟨next, isRead, isRest⟩ := readVerbatim_behind nonempty absent outside
      exact ⟨[], next, isRead, isRest⟩
  · intro straddles
    exact readVerbatim_of_absent (first.absent straddles.2)
  · intro nothing
    have absent : ¬delimiter.toList <:+: spelled pending.flatten := by
      rwa [nothing, List.infix_nil, String.toList_eq_nil_iff]
    rw [readVerbatim_of_absent absent, nothing]
    cases (reader.readUntil delimiter).1 with
    | none => rfl
    | some text => exact congrArg (fun found => (some found, _)) String.empty_append

/-- A bar is pending behind the control sequence `\a`.  A doubled bar is found in the text below
it, but if the text starts with a bar, the two bars together are passed over. -/
theorem verbatim_ends_first_iff_bars :
    let pending : List (List Token) := [[], [.control "a", .space], [.other '|']]
    let apart := Reader.ofText "b||c" ""
    let joined := Reader.ofText "|b||c" ""
    ("||" ≠ "" ∧
      FirstAt "||".toList (spelled pending.flatten ++ apart.rest) "\\a |b".toList ['c'] ∧
      ∃ left next, (stacked pending apart []).readVerbatim "||" =
          (some "\\a |b", stacked left next []) ∧
        spelled left.flatten ++ next.rest = ['c']) ∧
    (FirstAt "||".toList (spelled pending.flatten ++ joined.rest) "\\a ".toList "b||c".toList ∧
      ((stacked pending joined []).readVerbatim "||").1 = some "\\a ||b") := by
  intro pending apart joined
  have nonempty : "||" ≠ "" := by decide
  have firstApart :
      FirstAt "||".toList (spelled pending.flatten ++ apart.rest) "\\a |b".toList ['c'] :=
    firstAt_of_splitAtMark? (by decide)
  have firstJoined :
      FirstAt "||".toList (spelled pending.flatten ++ joined.rest) "\\a ".toList "b||c".toList :=
    firstAt_of_splitAtMark? (by decide)
  have inText := (verbatim_ends_first_iff [] nonempty firstApart).1.mpr
    (by unfold Straddles; decide)
  have across := (verbatim_ends_first_iff [] nonempty firstJoined).2.1
    (by unfold Straddles; decide)
  refine ⟨⟨nonempty, firstApart, inText⟩, firstJoined, ?_⟩
  rw [across]
  decide +kernel

end Input

end TexTree
