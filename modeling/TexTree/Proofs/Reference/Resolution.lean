import Mathlib.Data.List.Induction
import Mathlib.Data.List.Perm.Basic
import TexTree.Proofs.Reference.Calls

/-!
# Labels and references of one document

A reference to a label that has been attached takes the node of the last attachment; the
others wait, and take the node of the first attachment that comes later.  What an engine
knows after some calls is read off the calls (`Resolved`), one call after the other
(`Resolved.attach`, `Resolved.refer`).  If every label is attached at most once, the node
before a reference and the node behind it are the same, so that the order of the calls does
not matter (`references_resolve`).
-/

namespace TexTree

namespace References

/-! ## What is known after some calls -/

/-- What is known after calls that started without labels and references. -/
structure Resolved (current : Option NodeId) (start : Document) (calls : List Call)
    (state : References × Document) : Prop where
  isCurrent : state.1.current = current
  size : state.2.size = start.size
  labels : ∀ label, state.1.labels.get? label = (targets current label calls).getLast?
  pending : ∀ label, state.1.pending.get? label =
    if waiting current label calls = [] then none else some (waiting current label calls)
  value : ∀ before node field text after,
    calls = before ++ .refer node field text :: after →
    (state.2.node node).attribute? field = some (.reference (Text.trim text)
      (resolution current (Text.trim text) before after))
  untouched : ∀ node field, (node, field) ∉ calls.filterMap Call.slot? →
    (state.2.node node).attribute? field = (start.node node).attribute? field

namespace Resolved

variable {current : Option NodeId} {start : Document} {calls : List Call}
  {state : References × Document}

theorem init (current : Option NodeId) (start : Document) :
    Resolved current start [] (⟨.empty, .empty, current⟩, start) where
  isCurrent := rfl
  size := rfl
  labels _ := rfl
  pending label := by simp [waiting, slotsOf]
  value before node field text after equal := by simp at equal
  untouched _ _ _ := rfl

/-- The fields that wait for a label, as they are read off the table. -/
theorem waiting_eq (resolved : Resolved current start calls state) (label : String) :
    (state.1.pending.get? label).getD [] = waiting current label calls := by
  rw [resolved.pending]
  split
  · next none => simp [none]
  · rfl

theorem waiting_inside (inside : ∀ call ∈ calls, ∀ node ∈ call.node? current, node < start.size)
    {label : String} : ∀ slot ∈ waiting current label calls, slot.1 < start.size := by
  rintro ⟨node, field⟩ member
  obtain ⟨text, isCall, _⟩ := mem_slotsOf.mp (slotsOf_of_mem_waiting member)
  exact inside _ isCall node rfl

/-- A label without a node to attach it to changes nothing. -/
theorem attach_nowhere (resolved : Resolved current start calls state) {text : String}
    {node : Option NodeId} (nowhere : (node <|> current) = none) :
    Resolved current start (calls ++ [.attach text node]) state := by
  have noTarget : ∀ label, (Call.attach text node).target? current label = none := by
    intro label
    simp [Call.target?, nowhere]
  have sameTargets : ∀ label, targets current label (calls ++ [.attach text node]) =
      targets current label calls := by
    intro label
    simp [targets_concat, noTarget]
  have sameWaiting : ∀ label, waiting current label (calls ++ [.attach text node]) =
      waiting current label calls := by
    intro label
    simp [waiting, sameTargets, slotsOf_concat, Call.slotOf?]
  refine ⟨resolved.isCurrent, resolved.size, ?_, ?_, ?_, ?_⟩
  · intro label
    rw [sameTargets]
    exact resolved.labels label
  · intro label
    rw [sameWaiting]
    exact resolved.pending label
  · intro before target field other after equal
    rcases concat_eq_append_cons equal with ⟨_, impossible, _⟩ | ⟨shorter, rfl, earlier⟩
    · cases impossible
    · rw [resolution_concat, noTarget]
      simpa using resolved.value before target field other shorter earlier
  · intro target field unused
    apply resolved.untouched
    simpa [Call.slot?] using unused

section Attaching

variable {references : References} {document : Document} {text : String} {node : Option NodeId}
  {target : NodeId}

/-- The node of a label is recorded, and the fields that wait for the label are completed. -/
theorem perform_attach (resolved : Resolved current start calls (references, document))
    (notBlank : Text.trim text ≠ "") (isTarget : (node <|> current) = some target) :
    (Call.attach text node).perform (references, document) =
      ({ references with
         labels := references.labels.insert (Text.trim text) target
         pending := references.pending.erase (Text.trim text) },
        complete
          (document.modify target fun inner => { inner with label := some (Text.trim text) })
          (Text.trim text) target (waiting current (Text.trim text) calls)) := by
  have isCurrent : references.current = current := resolved.isCurrent
  have waits := resolved.waiting_eq (Text.trim text)
  simp only at waits
  simp [Call.perform, References.attach, isCurrent, isTarget, notBlank, waits]

/-- Only the fields that waited for the label have changed. -/
theorem attribute?_attach (resolved : Resolved current start calls (references, document))
    (inside : ∀ call ∈ calls, ∀ node ∈ call.node? current, node < start.size)
    (text : String) (target id : NodeId) (field : String) :
    ((complete (document.modify target fun inner => { inner with label := some (Text.trim text) })
      (Text.trim text) target (waiting current (Text.trim text) calls)).node id).attribute? field =
      if (id, field) ∈ waiting current (Text.trim text) calls then
        some (.reference (Text.trim text) (some target))
      else (document.node id).attribute? field := by
  have size : (document.modify target fun inner =>
      { inner with label := some (Text.trim text) }).size = start.size :=
    (Document.size_modify _ _ _).trans resolved.size
  rw [attribute?_complete (by rw [size]; exact waiting_inside inside)]
  congr 1
  rw [Document.node_modify]
  split <;> rfl

/-- A label with a node completes the references that wait for it. -/
theorem attach_somewhere (resolved : Resolved current start calls (references, document))
    (once : (calls.filterMap Call.slot?).Nodup)
    (inside : ∀ call ∈ calls, ∀ node ∈ call.node? current, node < start.size)
    (notBlank : Text.trim text ≠ "") (isTarget : (node <|> current) = some target) :
    Resolved current start (calls ++ [.attach text node])
      ((Call.attach text node).perform (references, document)) := by
  have targetOf : ∀ label, (Call.attach text node).target? current label =
      if Text.trim text = label then some target else none := by
    intro label
    simp [Call.target?, isTarget]
  have values := resolved.attribute?_attach inside text target
  rw [resolved.perform_attach notBlank isTarget]
  refine ⟨resolved.isCurrent, ?_, ?_, ?_, ?_, ?_⟩
  · exact (size_complete _ _ _ _).trans ((Document.size_modify _ _ _).trans resolved.size)
  · intro label
    rw [Table.get?_insert, targets_concat, targetOf]
    by_cases same : Text.trim text = label
    · simp [same]
    · simpa [same] using resolved.labels label
  · intro label
    rw [Table.get?_erase]
    by_cases same : Text.trim text = label
    · simp [same, waiting, targets_concat, targetOf]
    · have sameWaiting : waiting current label (calls ++ [.attach text node]) =
          waiting current label calls := by
        simp [waiting, targets_concat, targetOf, same, slotsOf_concat, Call.slotOf?]
      rw [if_neg same, sameWaiting]
      exact resolved.pending label
  · intro before id field other after equal
    rcases concat_eq_append_cons equal with ⟨_, impossible, _⟩ | ⟨shorter, rfl, rfl⟩
    · cases impossible
    · have known := resolved.value before id field other shorter rfl
      have waits := mem_waiting_iff current once (Text.trim text)
      rw [resolution_concat, targetOf]
      refine (values id field).trans ?_
      by_cases isWaiting : (id, field) ∈ waiting current (Text.trim text)
          (before ++ .refer id field other :: shorter)
      · obtain ⟨same, unresolved⟩ := waits.mp isWaiting
        simp [isWaiting, same, unresolved]
      · rw [if_neg isWaiting]
        refine known.trans ?_
        by_cases same : Text.trim other = Text.trim text
        · obtain ⟨found, isFound⟩ := Option.ne_none_iff_exists'.mp fun unresolved =>
            isWaiting (waits.mpr ⟨same, unresolved⟩)
          simp [same, isFound]
        · simp [Ne.symm same]
  · intro id field unused
    have unusedBefore : (id, field) ∉ calls.filterMap Call.slot? := by
      simpa [Call.slot?] using unused
    have outside : (id, field) ∉ waiting current (Text.trim text) calls := fun member =>
      unusedBefore (slot_mem_of_mem_slotsOf (slotsOf_of_mem_waiting member))
    refine (values id field).trans ?_
    rw [if_neg outside]
    exact resolved.untouched id field unusedBefore

end Attaching

/-- Attaching a label completes the references that wait for it. -/
theorem attach (resolved : Resolved current start calls state)
    (once : (calls.filterMap Call.slot?).Nodup)
    (inside : ∀ call ∈ calls, ∀ node ∈ call.node? current, node < start.size)
    {text : String} (notBlank : Text.trim text ≠ "") (node : Option NodeId) :
    Resolved current start (calls ++ [.attach text node])
      ((Call.attach text node).perform state) := by
  obtain ⟨references, document⟩ := state
  have isCurrent : references.current = current := resolved.isCurrent
  cases isTarget : (node <|> current) with
  | none =>
      have same : (Call.attach text node).perform (references, document) =
          (references, document) := by
        simp [Call.perform, References.attach, isCurrent, isTarget, notBlank]
      rw [same]
      exact resolved.attach_nowhere isTarget
  | some target => exact resolved.attach_somewhere once inside notBlank isTarget

/-- A reference takes the node of the label, or waits for it. -/
theorem refer (resolved : Resolved current start calls state) {node : NodeId}
    {field text : String} (fresh : (node, field) ∉ calls.filterMap Call.slot?)
    (inside : node < start.size) (notBlank : Text.trim text ≠ "") :
    Resolved current start (calls ++ [.refer node field text])
      ((Call.refer node field text).perform state) := by
  obtain ⟨references, document⟩ := state
  let target := (targets current (Text.trim text) calls).getLast?
  have isTarget : references.labels.get? (Text.trim text) = target :=
    resolved.labels (Text.trim text)
  have waits := resolved.waiting_eq (Text.trim text)
  simp only at waits
  have performed : (Call.refer node field text).perform (references, document) =
      ({ references with
         pending := if target.isNone then references.pending.insert (Text.trim text)
             (waiting current (Text.trim text) calls ++ [(node, field)])
           else references.pending },
        document.setAttribute node field (.reference (Text.trim text) target)) := by
    simp [Call.perform, References.refer, notBlank, isTarget, waits]
  have sameTargets : ∀ label, targets current label (calls ++ [.refer node field text]) =
      targets current label calls := by
    intro label
    simp [targets_concat, Call.target?]
  have values : ∀ id other,
      ((document.setAttribute node field (.reference (Text.trim text) target)).node id).attribute?
          other =
        if (node, field) = (id, other) then some (.reference (Text.trim text) target)
        else (document.node id).attribute? other :=
    Document.attribute?_setAttribute document (by rw [resolved.size]; exact inside) _ _
  rw [performed]
  refine ⟨resolved.isCurrent, ?_, ?_, ?_, ?_, ?_⟩
  · rw [Document.setAttribute, Document.size_modify]
    exact resolved.size
  · intro label
    rw [sameTargets]
    exact resolved.labels label
  · intro label
    have before := resolved.pending label
    by_cases isLabel : Text.trim text = label
    · subst isLabel
      by_cases unattached : targets current (Text.trim text) calls = []
      · simp [target, unattached, waiting, sameTargets, slotsOf_concat, Call.slotOf?]
      · simpa [target, unattached, waiting, sameTargets] using before
    · have sameWaiting : waiting current label (calls ++ [.refer node field text]) =
          waiting current label calls := by
        simp [waiting, sameTargets, slotsOf_concat, Call.slotOf?, isLabel]
      rw [sameWaiting]
      split
      · rw [Table.get?_insert, if_neg isLabel]
        exact before
      · exact before
  · intro before id other otherText after equal
    rw [values]
    rcases concat_eq_append_cons equal with ⟨rfl, last, rfl⟩ | ⟨shorter, rfl, earlier⟩
    · cases last
      simp [target, resolution, targets]
    · have different : (node, field) ≠ (id, other) := by
        intro same
        apply fresh
        rw [same, earlier]
        exact List.mem_filterMap.mpr ⟨.refer id other otherText, by simp, rfl⟩
      rw [if_neg different, resolution_concat]
      simpa [Call.target?] using resolved.value before id other otherText shorter earlier
  · intro id other unused
    rw [List.filterMap_append, List.mem_append, not_or] at unused
    have different : (node, field) ≠ (id, other) := by
      intro same
      simp [Call.slot?, same] at unused
    rw [values, if_neg different]
    exact resolved.untouched id other unused.1

end Resolved

/-- Calls that are allowed for a document: the nodes exist, the labels are not blank, and
no field refers twice. -/
structure Admissible (current : Option NodeId) (document : Document) (calls : List Call) :
    Prop where
  inside : ∀ call ∈ calls, ∀ node ∈ call.node? current, node < document.size
  notBlank : ∀ call ∈ calls, call.label ≠ ""
  once : (calls.filterMap Call.slot?).Nodup

namespace Admissible

variable {current : Option NodeId} {document : Document} {calls : List Call}

theorem of_prefix {start : List Call} (allowed : Admissible current document calls)
    (isStart : start <+: calls) : Admissible current document start where
  inside call member := allowed.inside call (isStart.subset member)
  notBlank call member := allowed.notBlank call (isStart.subset member)
  once := allowed.once.sublist (isStart.sublist.filterMap _)

theorem perm {other : List Call} (allowed : Admissible current document calls)
    (isPerm : calls.Perm other) : Admissible current document other where
  inside call member := allowed.inside call (isPerm.mem_iff.mpr member)
  notBlank call member := allowed.notBlank call (isPerm.mem_iff.mpr member)
  once := (isPerm.filterMap _).nodup_iff.mp allowed.once

/-- What is known after all calls. -/
theorem resolved (allowed : Admissible current document calls) :
    Resolved current document calls
      (performAll (⟨.empty, .empty, current⟩, document) calls) := by
  induction calls using List.reverseRecOn with
  | nil => exact .init current document
  | append_singleton calls call ih =>
      have earlier := allowed.of_prefix (List.prefix_append calls [call])
      have known := ih earlier
      have notBlank := allowed.notBlank call (by simp)
      rw [performAll, List.foldl_append, List.foldl_cons, List.foldl_nil]
      cases call with
      | attach text node => exact known.attach earlier.once earlier.inside notBlank node
      | refer node field text =>
          refine known.refer ?_ (allowed.inside (.refer node field text) (by simp) node rfl)
            notBlank
          have once := allowed.once
          rw [List.filterMap_append, List.nodup_append] at once
          intro member
          exact once.2.2 _ member (node, field) (by simp [Call.slot?]) rfl

end Admissible

/-- A label that is attached at most once gives every reference the same node, wherever
the reference stands. -/
theorem resolution_eq_head? {current : Option NodeId} {label : String}
    {before after : List Call} (node : NodeId) (field text : String)
    (once : (targets current label (before ++ .refer node field text :: after)).length ≤ 1) :
    resolution current label before after =
      (targets current label (before ++ .refer node field text :: after)).head? := by
  have all : targets current label (before ++ .refer node field text :: after) =
      targets current label before ++ targets current label after := by
    simp [targets, Call.target?]
  rw [all] at once ⊢
  unfold resolution
  rcases before? : targets current label before with _ | ⟨target, _ | ⟨second, rest⟩⟩
  · simp
  · simp
  · simp [before?] at once

/-- At every point of a sequence of calls, the unresolved labels are those that were
referred to and never attached, none of which is a known label, and every reference has
the node of the last attachment before it or else of the first one after it.  If every
label is attached at most once, the attributes do not depend on the order of the
calls. -/
theorem references_resolve {current : Option NodeId} {document : Document} {calls : List Call}
    (allowed : Admissible current document calls) :
    (∀ start, start <+: calls →
      let state := performAll (⟨.empty, .empty, current⟩, document) start
      (∀ label, label ∈ state.1.unresolved ↔
        (∃ node field text, Call.refer node field text ∈ start ∧ Text.trim text = label) ∧
          targets current label start = []) ∧
      (∀ label ∈ state.1.unresolved, label ∉ state.1.labels.names) ∧
      ∀ before node field text after, start = before ++ .refer node field text :: after →
        (state.2.node node).attribute? field = some (.reference (Text.trim text)
          ((targets current (Text.trim text) before).getLast? <|>
            (targets current (Text.trim text) after).head?))) ∧
    ((∀ label, (targets current label calls).length ≤ 1) →
      ∀ other, calls.Perm other → ∀ node field,
        ((performAll (⟨.empty, .empty, current⟩, document) other).2.node node).attribute? field =
          ((performAll (⟨.empty, .empty, current⟩, document) calls).2.node node).attribute?
            field) := by
  constructor
  · intro start isStart state
    have resolved := (allowed.of_prefix isStart).resolved
    have unresolved : ∀ label, label ∈ state.1.unresolved ↔
        (∃ node field text, Call.refer node field text ∈ start ∧ Text.trim text = label) ∧
          targets current label start = [] := by
      intro label
      rw [unresolved, Table.mem_names_iff, resolved.pending]
      by_cases unattached : targets current label start = []
      · have isWaiting : waiting current label start = slotsOf label start := if_pos unattached
        rw [isWaiting]
        by_cases unused : slotsOf label start = []
        · rw [if_pos unused]
          rw [slotsOf_eq_nil] at unused
          simpa [unattached] using unused
        · obtain ⟨⟨node, field⟩, member⟩ := List.exists_mem_of_ne_nil _ unused
          obtain ⟨text, isCall, isLabel⟩ := mem_slotsOf.mp member
          rw [if_neg unused]
          exact iff_of_true rfl ⟨⟨node, field, text, isCall, isLabel⟩, unattached⟩
      · simp [waiting, unattached]
    refine ⟨unresolved, ?_, resolved.value⟩
    intro label member
    rw [Table.mem_names_iff, resolved.labels, ((unresolved label).mp member).2]
    simp
  · intro attachedOnce other isPerm node field
    have known := allowed.resolved
    have knownOther := (allowed.perm isPerm).resolved
    by_cases used : (node, field) ∈ calls.filterMap Call.slot?
    · obtain ⟨call, member, isSlot⟩ := List.mem_filterMap.mp used
      cases call with
      | attach text target => cases isSlot
      | refer node' field' text =>
          cases isSlot
          obtain ⟨before, after, split⟩ := List.append_of_mem member
          obtain ⟨before', after', split'⟩ := List.append_of_mem (isPerm.mem_iff.mp member)
          -- The label has at most one target, which is the same for both orders.
          have sameTargets : targets current (Text.trim text) other =
              targets current (Text.trim text) calls := by
            have permuted : (targets current (Text.trim text) calls).Perm
                (targets current (Text.trim text) other) := isPerm.filterMap _
            have short := attachedOnce (Text.trim text)
            match targets? : targets current (Text.trim text) calls with
            | [] => exact List.perm_nil.mp (targets? ▸ permuted).symm
            | [target] => exact List.perm_singleton.mp (targets? ▸ permuted).symm
            | _ :: _ :: _ => simp [targets?] at short
          rw [knownOther.value before' node field text after' split',
            known.value before node field text after split,
            resolution_eq_head? node field text
              (split' ▸ sameTargets ▸ attachedOnce (Text.trim text)),
            resolution_eq_head? node field text (split ▸ attachedOnce (Text.trim text)),
            ← split, ← split', sameTargets]
    · rw [known.untouched node field used, knownOther.untouched node field]
      rwa [(isPerm.filterMap _).mem_iff] at used

/-- A reference that waits, one to a label that is attached twice before it, and one that
is never completed. -/
theorem references_resolve_three :
    let document : Document := ⟨#[Document.rootNode, Document.rootNode, Document.rootNode]⟩
    let calls : List Call :=
      [.refer 1 "label" " a ", .attach "a" none, .attach "b" (some 1), .attach "b" (some 2),
        .refer 2 "label" "b", .attach "b" (some 0), .refer 2 "other" "c"]
    let state := performAll (⟨.empty, .empty, some 0⟩, document) calls
    (∀ label, label ∈ state.1.unresolved ↔
      (∃ node field text, Call.refer node field text ∈ calls ∧ Text.trim text = label) ∧
        targets (some 0) label calls = []) ∧
      (state.2.node 1).attribute? "label" = some (.reference "a" (some 0)) ∧
      (state.2.node 2).attribute? "label" = some (.reference "b" (some 2)) ∧
      (state.2.node 2).attribute? "other" = some (.reference "c" none) := by
  intro document calls state
  have allowed : Admissible (some 0) document calls := by
    refine ⟨?_, ?_, ?_⟩
    · decide +kernel
    · decide +kernel
    · decide +kernel
  obtain ⟨unresolved, _, values⟩ := (references_resolve allowed).1 calls (List.prefix_refl calls)
  exact ⟨unresolved, values [] 1 "label" " a " _ rfl,
    values (calls.take 4) 2 "label" "b" _ rfl, values (calls.take 6) 2 "other" "c" _ rfl⟩

end References

end TexTree
