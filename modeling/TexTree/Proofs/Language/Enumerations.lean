import TexTree.Proofs.Engine.Listing
import TexTree.Proofs.Language.Segment

/-!
# Enumerations number their items

In the document of a text with lists, the items of each enumeration are numbered one after
the other, whatever stands in them and between them, and the form of the numbers tells how
many enumerations there are around (`ListText.items_numbered`).

A text is collected by any loop, by recursion on the text: each list is collected by a loop
of its own, and so is the text of each of its items.
-/

namespace TexTree

open Engine

/-! ## Texts are collected -/

namespace ListText

theorem length_skip_le (text : ListText) : text.skip.tokens.length ≤ text.tokens.length := by
  induction text using skip.induct with
  | case1 token rest isSpace ih =>
      rw [skip, if_pos isSpace, tokens]
      exact Nat.le_succ_of_le ih
  | case2 token rest notSpace => rw [skip, if_neg notSpace]
  | case3 text other => rw [skip]; exact other

theorem sizeOf_skip_le (text : ListText) : sizeOf text.skip ≤ sizeOf text := by
  induction text using skip.induct with
  | case1 token rest isSpace ih =>
      rw [skip, if_pos isSpace]
      simp only [character.sizeOf_spec]
      omega
  | case2 token rest notSpace => rw [skip, if_neg notSpace]
  | case3 text other => rw [skip]; exact other

theorem Proper.skip {level : Nat} {text : ListText} (proper : text.Proper level) :
    text.skip.Proper level := by
  induction text using ListText.skip.induct with
  | case1 token rest isSpace ih =>
      rw [ListText.skip, if_pos isSpace]
      exact ih proper.2
  | case2 token rest notSpace => rwa [ListText.skip, if_neg notSpace]
  | case3 text other => rwa [ListText.skip]; exact other

/-- A list is written before what follows it. -/
theorem tokens_list (kind : ListKind) (lead : ListText) (items : ListItems) (rest : ListText) :
    (list kind lead items rest).tokens =
      (.control "begin" :: braced kind.name
        (lead.tokens ++ (items.tokens ++ .control "end" :: braced kind.name []))) ++
        rest.tokens := by
  simp [tokens, braced]

end ListText

mutual

/-- A text is collected as its lists, whatever stands behind it. -/
theorem ListText.collected {fuel : Nat} {opened : List OpenScope} {values : Nat → Int} :
    (text : ListText) → text.Proper (enumerationsIn opened) → text.tokens.length < fuel →
    Collected fuel opened values text.tokens (text.numbering (enumerationsIn opened))
  | .done, _, _ => .nil
  | .character token rest, ⟨plain, proper⟩, enough => by
      rw [ListText.tokens, List.length_cons] at enough
      have others : Collected fuel opened values rest.tokens _ :=
        rest.collected proper (by omega)
      exact (Collected.character (by omega) plain).append others
  | .paragraph rest, proper, enough => by
      rw [ListText.tokens, List.length_cons] at enough
      have others : Collected fuel opened values rest.tokens _ :=
        rest.collected proper (by omega)
      exact (Collected.paragraph (by omega)).append others
  | .list kind lead items rest, ⟨few, properLead, properItems, proper⟩, enough => by
      rw [ListText.tokens_list] at enough ⊢
      simp only [braced, List.length_append, List.length_cons] at enough
      obtain ⟨inner, rfl⟩ : ∃ inner, fuel = inner + 1 := Nat.exists_eq_add_one.mpr (by omega)
      have before : Collected inner (.environment kind.name :: opened)
          (kind.values values (enumerationsIn opened) 0) lead.tokens
          (lead.numbering (kind.inside (enumerationsIn opened))) := by
        rw [← kind.enumerationsIn_cons] at properLead ⊢
        exact lead.collected properLead (by omega)
      have inside : ItemsCollected inner kind opened values 0 items :=
        items.collected few properItems (by omega)
      have one := Collected.list (by omega) (by omega) few properItems before inside
      have others : Collected (inner + 1) opened values rest.tokens _ :=
        rest.collected proper (by omega)
      exact one.append others
termination_by text => sizeOf text

/-- The items of a list are collected with their numbers. -/
theorem ListItems.collected {fuel position : Nat} {kind : ListKind}
    {opened : List OpenScope} {values : Nat → Int} :
    (items : ListItems) → kind.inside (enumerationsIn opened) ≤ 4 →
    items.Proper (kind.inside (enumerationsIn opened)) → items.tokens.length < fuel →
    ItemsCollected fuel kind opened values position items
  | .done, _, _, _ => .done
  | .item content rest, few, ⟨_, proper, properRest⟩, enough => by
      rw [ListItems.tokens, List.length_cons, List.length_append] at enough
      obtain ⟨inner, rfl⟩ : ∃ inner, fuel = inner + 1 := Nat.exists_eq_add_one.mpr (by omega)
      have shorter := content.length_skip_le
      have smaller := content.sizeOf_skip_le
      have inside : Collected inner (.environment kind.name :: opened)
          (kind.values values (enumerationsIn opened) (position + 1)) content.skip.tokens
          (content.numbering (kind.inside (enumerationsIn opened))) := by
        rw [← kind.enumerationsIn_cons] at proper ⊢
        rw [← content.numbering_skip]
        exact content.skip.collected proper.skip (by omega)
      have others : ItemsCollected (inner + 1) kind opened values (position + 1) rest :=
        rest.collected few properRest (by omega)
      exact .item (by omega) (by omega) few properRest inside others
termination_by items => sizeOf items

end

/-! ## Sources -/

namespace Engine

variable {engine : Engine} {values : Nat → Int} {text : ListText}

theorem counts_withText {source : String} {tokens : List Token}
    (encloses : Encloses [] tokens (engine.withText source)) (templates : engine.Templates)
    (counters : engine.counters = Enumeration.counters fun _ => 0) :
    Counts [] (fun _ => 0) tokens (engine.withText source) :=
  ⟨encloses, templates, _, counters, fun _ _ => rfl⟩

/-- At the beginning no enumeration is open. -/
theorem counts_fresh (settings : Settings) (files : Files) (date : Date) {source : String}
    {tokens : List Token} (ahead : (Reader.ofText source "<string>").ahead .initial = tokens) :
    Counts [] (fun _ => 0) tokens ((fresh settings files date .empty).withText source) :=
  counts_withText (encloses_fresh settings files date ahead) (templates_fresh settings files date)
    (enumerationCounters_fresh settings files date)

/-- The root collects the lists of a text. -/
theorem runs_digestRoot_lists (idle : engine.Idle) (proper : text.Proper 0)
    (counts : Counts [] values text.tokens engine) {fuel : Nat}
    (enough : text.tokens.length + 2 ≤ fuel) :
    Runs (digestRoot (Engine.interpreter fuel)) engine fun _ =>
      Collects engine Document.root (text.numbering 0) := by
  obtain ⟨inner, rfl⟩ : ∃ inner, fuel = inner + 1 := Nat.exists_eq_add_one.mpr (by omega)
  have childless : engine.document.children Document.root = [] := by
    rw [idle.document]
    rfl
  have stage : Stage engine Document.root [] [] values (text.tokens ++ []) engine := by
    rw [List.append_nil]
    exact ⟨idle.steady.collects idle.fill.inside idle.fill.free childless, idle.steady, counts⟩
  have collected : Collected inner [] values text.tokens (text.numbering 0) :=
    text.collected proper (by omega)
  obtain ⟨count, few, _, between, reached, stage⟩ :=
    collected.follow (collector_digestRootWithin idle.digest_root) stage false
  obtain ⟨steps, isLimit⟩ : ∃ steps, inner + 1 = count + (steps + 1) :=
    ⟨inner - count, by omega⟩
  have nothing := runs_nextItem_of_pos (by omega : 0 < inner)
    stage.counts.encloses.runs_nextItem_nil
  obtain ⟨_, last, isItem, ⟨rfl, isLast⟩, produced⟩ :=
    nothing.sat (stage.collects.sat_nextItem inner)
  have read : (Engine.interpreter (inner + 1)).run .nextItem between = .ok none last := isItem
  have keeps : between.document.KeepsNumbers last.document := isLast ▸ .refl _
  have whole := reached (steps + 1)
  rw [← isLimit] at whole
  unfold digestRoot Runs
  change ∃ result final, digestRootWithin _ (inner + 1) engine = _ ∧ _
  rw [whole, digestRootWithin]
  simp only [bind, EStateM.bind, read]
  exact ⟨(), last, rfl, stage.collects.produce produced keeps⟩

/-- The numbering of the document is that of the text. -/
theorem runs_parse_lists (idle : engine.Idle) {source : String} (proper : text.Proper 0)
    (counts : Counts [] values text.tokens (engine.withText source)) {fuel : Nat}
    (enough : text.tokens.length + 2 ≤ fuel) :
    ∃ document after, parseTextWithin fuel source engine = .ok document after ∧
      (document.tree Document.root).numbering = text.numbering 0 := by
  have started := idle.withText source
  obtain ⟨done, after, parses, collects⟩ :=
    runs_parse (runs_digestRoot_lists started proper counts enough)
  have sound := (collects.filling.returned started).orderly.sound
  have contains := collects.contains_paragraphs false
  have isRoot : (done.complete.1.node Document.root).kind = .document :=
    contains.kind.trans (by rw [started.document]; rfl)
  refine ⟨_, after, parses, ?_⟩
  rw [Document.numbering_tree, sound.gauged_numbered_root isRoot]
  exact contains.within _ (Document.agrees_number _)

end Engine

/-- A source whose tokens are those of a text with lists is parsed.  The items of every
enumeration in the document are numbered by their positions among its items, as far as
counters go, in decimal digits, small letters, small roman numerals or capital letters,
depending on how many enumerations are around, and the items of other lists have no
numbers. -/
theorem ListText.items_numbered (settings : Settings) (files : Files) (date : Date)
    {text : ListText} (proper : text.Proper 0) {source : String}
    (spelled : ((Reader.ofText source "<string>").tokens .initial).1.map Token.bare =
      text.tokens) {fuel : Nat} (enough : text.tokens.length + 2 ≤ fuel) :
    ∃ document engine,
      parseTextWithin fuel source (fresh settings files date .empty) = .ok document engine ∧
      (document.tree Document.root).numbering = text.numbering 0 := by
  rw [Reader.map_bare_tokens] at spelled
  exact runs_parse_lists (idle_fresh settings files date) proper
    (counts_fresh settings files date spelled) enough

/-- An enumeration with two items, the first of which has an enumeration inside of another
list. -/
def ListText.nestedLists : ListText :=
  .list .enumerate .done
    (.item (.character (.letter 'x') (.list .itemize .done
        (.item (.list .enumerate .done (.item .done (.item word .done)) .done) .done) .done))
      (.item (.paragraph (.list .enumerate .done (.item word .done) word)) .done))
    .done
where
  word : ListText := .character (.letter 'y') .done

/-- A source for these lists. -/
def ListText.nestedSource : String :=
  "\\begin\x7benumerate\x7d\\item x\\begin\x7bitemize\x7d\\item\\begin\x7benumerate\x7d" ++
    "\\item\\item y\\end\x7benumerate\x7d\\end\x7bitemize\x7d\\item\\par" ++
    "\\begin\x7benumerate\x7d\\item y\\end\x7benumerate\x7dy\\end\x7benumerate\x7d"

theorem ListText.items_numbered_nestedLists :
    nestedLists.Proper 0 ∧
    ((Reader.ofText nestedSource "<string>").tokens .initial).1.map Token.bare =
      nestedLists.tokens ∧
    nestedLists.tokens.length + 2 ≤ 200 ∧
    ∃ document engine,
      parseTextWithin 200 nestedSource (fresh {} default ⟨2021, 3, 4⟩ .empty) =
        .ok document engine ∧
      (document.tree Document.root).numbering =
        [.list "enumerate"
          [.item (some "1") [.list "itemize"
            [.item none [.list "enumerate" [.item (some "a") [], .item (some "b") []]]]],
          .item (some "2") [.list "enumerate" [.item (some "a") []]]]] := by
  have proper : nestedLists.Proper 0 := by decide
  have spelled : ((Reader.ofText nestedSource "<string>").tokens .initial).1.map Token.bare =
      nestedLists.tokens := by
    decide +kernel
  have enough : nestedLists.tokens.length + 2 ≤ 200 := by decide +kernel
  have labels : Enumeration.label 0 (Enumeration.numberAt 1) = "1" ∧
      Enumeration.label 0 (Enumeration.numberAt 2) = "2" ∧
      Enumeration.label 1 (Enumeration.numberAt 1) = "a" ∧
      Enumeration.label 1 (Enumeration.numberAt 2) = "b" := by
    decide +kernel
  obtain ⟨document, engine, parses, isNumbering⟩ :=
    items_numbered {} default ⟨2021, 3, 4⟩ proper spelled enough
  refine ⟨proper, spelled, enough, document, engine, parses, isNumbering.trans ?_⟩
  simp [nestedLists, nestedLists.word, numbering, ListItems.numbering, ListKind.number?,
    ListKind.inside, ListKind.name, labels]

/-! ## More items than numbers -/

/-- So many items without a text. -/
def ListItems.blank : Nat → ListItems
  | 0 => .done
  | count + 1 => .item .done (blank count)

/-- An enumeration of so many items without a text. -/
def ListText.blankItems (count : Nat) : ListText := .list .enumerate .done (.blank count) .done

/-- A source for such an enumeration. -/
def ListText.blankSource (count : Nat) : List Char :=
  Written.environment "enumerate" (List.replicate count (Written.bare "item")).flatten

theorem ListItems.tokens_blank (count : Nat) :
    (blank count).tokens = (List.replicate count [Token.control "item"]).flatten := by
  induction count with
  | zero => rfl
  | succ count ih =>
      rw [blank, tokens, ih, List.replicate_succ, List.flatten_cons]
      rfl

theorem ListItems.proper_blank (level count : Nat) : (blank count).Proper level := by
  induction count with
  | zero => exact trivial
  | succ count ih => exact ⟨rfl, trivial, ih⟩

theorem ListItems.numbering_blank (level position count : Nat) :
    (blank count).numbering .enumerate level position =
      (List.range' position count).map fun position =>
        .item (some (Enumeration.label level (Enumeration.numberAt position))) [] := by
  induction count generalizing position with
  | zero => rfl
  | succ count ih =>
      rw [blank, numbering, ih, List.range'_succ, List.map_cons]
      rfl

theorem ListText.cuts_blankItems (count : Nat) :
    Cuts (blankSource count) (blankItems count).tokens := by
  have items : Cuts _ _ := (Cuts.bare (by decide : Text.isControlWord "item")).replicate count
  have whole := Cuts.environment (by decide : Text.isControlWord "enumerate") items
  rw [← ListItems.tokens_blank] at whole
  simpa [blankItems, blankSource, ListKind.name, tokens_list, tokens, braced, Input.named]
    using whole

/-- The numbers of an enumeration with so many items. -/
theorem ListText.numbering_blankItems (settings : Settings) (files : Files) (date : Date)
    (count : Nat) :
    ∃ fuel document engine,
      parseTextWithin fuel (String.ofList (blankSource count)) (fresh settings files date .empty) =
        .ok document engine ∧
      (document.tree Document.root).numbering =
        [.list "enumerate" ((List.range' 1 count).map fun position =>
          .item (some (toString (Enumeration.numberAt position))) [])] := by
  have proper : (blankItems count).Proper 0 :=
    ⟨by decide, trivial, ListItems.proper_blank _ _, trivial⟩
  have ahead := (cuts_blankItems count).ahead_ofText "<string>"
  obtain ⟨document, engine, parses, isNumbering⟩ :=
    runs_parse_lists (idle_fresh settings files date) proper
      (counts_fresh settings files date ahead) (Nat.le_refl _)
  refine ⟨_, document, engine, parses, isNumbering.trans ?_⟩
  rw [blankItems, numbering, numbering, numbering, ListItems.numbering_blank]
  rfl

/-- There are more items than numbers, and the last item has the number of the one before it. -/
theorem ListText.items_numbered_saturated :
    ∃ fuel document engine items,
      parseTextWithin fuel (String.ofList (blankSource 2147483648))
        (fresh {} default ⟨2021, 3, 4⟩ .empty) = .ok document engine ∧
      (document.tree Document.root).numbering = [.list "enumerate" items] ∧
      items.length = 2147483648 ∧ items.getLast? = some (.item (some "2147483647") []) := by
  obtain ⟨fuel, document, engine, parses, isNumbering⟩ :=
    numbering_blankItems {} default ⟨2021, 3, 4⟩ 2147483648
  let numbered (position : Nat) : Numbered (Option String) :=
    .item (some (toString (Enumeration.numberAt position))) []
  have last : ∀ count, ((List.range' 1 (count + 1)).map numbered).getLast? =
      some (numbered (1 + count)) := by
    intro count
    rw [List.range'_1_concat, List.map_append, List.map_singleton, List.getLast?_concat]
  have greatest : toString (Enumeration.numberAt (1 + 2147483647)) = "2147483647" := by
    decide +kernel
  refine ⟨fuel, document, engine, _, parses, isNumbering, ?_, (last 2147483647).trans ?_⟩
  · rw [List.length_map, List.length_range']
  · exact congrArg (fun text => some (Numbered.item (some text) [])) greatest

end TexTree
