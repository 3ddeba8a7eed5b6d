import Mathlib.Tactic.FinCases
import Mathlib.Tactic.Tauto
import Mathlib.Logic.Relation
import TexTree.Proofs.Counter.Chains

/-!
# Resetting counters

When a counter is set, added to or stepped, it gets its new value, every other counter
from which the superiors lead to it becomes zero, and nothing else changes (`Resets`).
This holds for any counters, also if the superiors lead in a circle or to names that are
no counters.

The counters that become zero can be found from above, by going through the counters
directly below one that has been found, in an order that is not determined
(`Pass.Step`).  Whatever the order is, this ends, and always with the same values
(`changes_reset`).
-/

namespace TexTree

namespace Counters

variable {counters changed : Counters} {name other : String} {value old : Int}
  {reset : String → Prop} {found : List String}

/-! ## Changes of values -/

/-- Give every counter a value that depends on its name and its old value. -/
def revalue (counters : Counters) (valueOf : String → Int → Int) : Counters :=
  ⟨counters.list.map fun counter =>
    { counter with value := valueOf counter.name counter.value }⟩

theorem get?_revalue (counters : Counters) (valueOf : String → Int → Int) (name : String) :
    (counters.revalue valueOf).get? name = (counters.get? name).map fun counter =>
      { counter with value := valueOf name counter.value } := by
  simp only [revalue, get?, List.find?_map, Function.comp_def]
  cases found : counters.list.find? fun counter => counter.name == name with
  | none => rfl
  | some counter =>
      have isNamed : counter.name = name := by simpa using List.find?_some found
      rw [Option.map_some, Option.map_some, isNamed]

@[simp] theorem value?_revalue (counters : Counters) (valueOf : String → Int → Int)
    (name : String) :
    (counters.revalue valueOf).value? name = (counters.value? name).map (valueOf name) := by
  rw [value?, get?_revalue, value?, Option.map_map, Option.map_map]
  rfl

@[simp] theorem superior?_revalue (counters : Counters) (valueOf : String → Int → Int) :
    (counters.revalue valueOf).superior? = counters.superior? := by
  funext name
  rw [superior?, get?_revalue, superior?, Option.bind_map]
  rfl

@[simp] theorem names_revalue (counters : Counters) (valueOf : String → Int → Int) :
    (counters.revalue valueOf).list.map Counter.name = counters.list.map Counter.name := by
  simp [revalue]

theorem update_eq_revalue (counters : Counters) (name : String) (change : Int → Int) :
    counters.update name change = counters.revalue fun other old =>
      if other = name then change old else if counters.isBelow other name then 0 else old := by
  rw [update, revalue]
  refine congrArg Counters.mk (List.map_congr_left fun counter _ => ?_)
  simp only [beq_iff_eq]
  split
  · rfl
  · split <;> rfl

theorem contains_of_value? (isOld : counters.value? name = some old) :
    counters.contains name = true := by
  obtain ⟨counter, found, -⟩ := Option.map_eq_some_iff.mp isOld
  rw [contains, found]
  rfl

/-! ## What becomes of counters -/

/-- A counter got a value, the others that are to be put back are zero, and everything else
is as it was. -/
structure Resets (counters : Counters) (name : String) (value : Int) (reset : String → Prop)
    (changed : Counters) : Prop where
  own : changed.value? name = some value
  zero : ∀ other, other ≠ name → reset other →
    changed.value? other = (counters.value? other).map fun _ => 0
  rest : ∀ other, other ≠ name → ¬reset other →
    changed.value? other = counters.value? other
  names : changed.list.map Counter.name = counters.list.map Counter.name
  superiors : changed.superior? = counters.superior?

theorem Resets.congr {reset' : String → Prop}
    (resets : counters.Resets name value reset changed)
    (same : ∀ other, reset' other ↔ reset other) :
    counters.Resets name value reset' changed := by
  rwa [show reset' = reset from funext fun other => propext (same other)]

/-- The description determines all values. -/
theorem Resets.value?_eq {changed' : Counters}
    (resets : counters.Resets name value reset changed)
    (resets' : counters.Resets name value reset changed') :
    changed.value? = changed'.value? := by
  funext other
  by_cases isOwn : other = name
  · rw [isOwn, resets.own, resets'.own]
  by_cases isReset : reset other
  · rw [resets.zero other isOwn isReset, resets'.zero other isOwn isReset]
  · rw [resets.rest other isOwn isReset, resets'.rest other isOwn isReset]

/-- A counter that is changed puts back the counters below it. -/
theorem resets_update (isOld : counters.value? name = some old) (change : Int → Int) :
    counters.Resets name (change old) (counters.Leads · name)
      (counters.update name change) := by
  rw [update_eq_revalue]
  refine ⟨?_, ?_, ?_, names_revalue _ _, superior?_revalue _ _⟩
  · rw [value?_revalue, isOld, Option.map_some, if_pos rfl]
  · intro other apart leads
    simp only [value?_revalue, apart, (isBelow_iff_leads apart).mpr leads, if_true, if_false]
  · intro other apart notBelow
    simp only [value?_revalue, apart, mt (isBelow_iff_leads apart).mp notBelow, if_false,
      Bool.false_eq_true, Option.map_id_fun', id]

/-! ## Finding the counters from above -/

/-- The counters whose superior is the given one. -/
def directlyBelow (counters : Counters) (name : String) : List String :=
  (counters.list.map Counter.name).filter fun other => counters.superior? other == some name

@[simp] theorem mem_directlyBelow :
    other ∈ counters.directlyBelow name ↔ counters.superior? other = some name := by
  rw [directlyBelow, List.mem_filter, beq_iff_eq, and_iff_right_iff_imp]
  intro isSuperior
  exact contains_iff_mem.mp (contains_of_superior? isSuperior)

/-- Put the named counters back to zero. -/
def clear (counters : Counters) (names : List String) : Counters :=
  counters.revalue fun other old => if other ∈ names then 0 else old

/-- Give a counter a value, and leave those below it as they are. -/
def assign (counters : Counters) (name : String) (value : Int) : Counters :=
  counters.revalue fun other old => if other = name then value else old

theorem resets_assign (isOld : counters.value? name = some old) (value : Int)
    (nothing : ∀ other, other ≠ name → ¬reset other) :
    counters.Resets name value reset (counters.assign name value) where
  own := by rw [assign, value?_revalue, isOld, Option.map_some, if_pos rfl]
  zero := fun other apart isReset => absurd isReset (nothing other apart)
  rest := by
    intro other apart _
    simp only [assign, value?_revalue, apart, if_false, Option.map_id_fun', id]
  names := names_revalue _ _
  superiors := superior?_revalue _ _

theorem Resets.clear (resets : counters.Resets name value reset changed)
    (apart : name ∉ found) :
    counters.Resets name value (fun other => reset other ∨ other ∈ found)
      (changed.clear found) where
  own := by rw [Counters.clear, value?_revalue, resets.own, Option.map_some, if_neg apart]
  zero := by
    intro other apart isReset
    by_cases isFound : other ∈ found
    · simp only [Counters.clear, value?_revalue, isFound, if_true]
      by_cases before : reset other
      · rw [resets.zero other apart before, Option.map_map]
        rfl
      · rw [resets.rest other apart before]
    · rw [Counters.clear, value?_revalue,
        resets.zero other apart (isReset.resolve_right isFound), Option.map_map]
      simp only [Function.comp_def, isFound, if_false]
  rest := by
    intro other apart notReset
    rw [not_or] at notReset
    simp only [Counters.clear, value?_revalue, notReset.2, if_false, Option.map_id_fun', id,
      resets.rest other apart notReset.1]
  names := (names_revalue _ _).trans resets.names
  superiors := (superior?_revalue _ _).trans resets.superiors

/-- Counters that are being put back: the names whose dependants have been put back, and
those whose dependants are still to be put back, the next one first. -/
structure Pass where
  counters : Counters
  visited : List String
  pending : List String

namespace Pass

/-- A name is passed by if it was visited.  Otherwise the counters directly below it are
gone through in some order: those that were not visited are put back, and their dependants
will be. -/
inductive Step : Pass → Pass → Prop where
  | seen {counters : Counters} {visited pending : List String} {current : String}
      (known : current ∈ visited) :
      Step ⟨counters, visited, current :: pending⟩ ⟨counters, visited, pending⟩
  | fresh {counters : Counters} {visited pending found : List String} {current : String}
      (new : current ∉ visited)
      (order : found.Perm
        ((counters.directlyBelow current).filter fun other => other ∉ current :: visited)) :
      Step ⟨counters, visited, current :: pending⟩
        ⟨counters.clear found, current :: visited, found ++ pending⟩

/-- The pass that begins with the counter that was given a value. -/
def start (counters : Counters) (name : String) (value : Int) : Pass :=
  ⟨counters.assign name value, [], [name]⟩

/-- The name was visited, or will be. -/
def Knows (pass : Pass) (other : String) : Prop :=
  other ∈ pass.visited ∨ other ∈ pass.pending

/-- Between two steps, what has been put back are the known names but for the one that was
given a value; they lead to this one, and what is directly below a visited name is known. -/
structure Sound (counters : Counters) (name : String) (value : Int) (pass : Pass) : Prop where
  resets : counters.Resets name value pass.Knows pass.counters
  leads : ∀ other, pass.Knows other → counters.Leads other name
  closed : ∀ above ∈ pass.visited, ∀ other, counters.superior? other = some above →
    pass.Knows other
  begun : name ∈ pass.visited ∨ pass.pending = [name]

theorem sound_start (isOld : counters.value? name = some old) (value : Int) :
    (start counters name value).Sound counters name value := by
  have knows : ∀ other, (start counters name value).Knows other ↔ other = name := by
    simp [start, Knows]
  refine ⟨resets_assign isOld value ?_, ?_, ?_, .inr rfl⟩
  · exact fun other apart known => apart ((knows other).mp known)
  · exact fun other known => ⟨0, congrArg some ((knows other).mp known)⟩
  · exact fun _ visited => by cases visited

theorem Sound.seen {visited pending : List String} {current : String}
    (sound : Sound counters name value ⟨changed, visited, current :: pending⟩)
    (known : current ∈ visited) : Sound counters name value ⟨changed, visited, pending⟩ := by
  have same : ∀ other, Knows ⟨changed, visited, pending⟩ other ↔
      Knows ⟨changed, visited, current :: pending⟩ other := by
    intro other
    simp only [Knows, List.mem_cons]
    grind
  refine ⟨sound.resets.congr same, ?_, ?_, ?_⟩
  · exact fun other isKnown => sound.leads other ((same other).mp isKnown)
  · exact fun above visited other isAbove =>
      (same other).mpr (sound.closed above visited other isAbove)
  · rcases sound.begun with visited | isFirst
    · exact .inl visited
    · exact .inl (List.head_eq_of_cons_eq isFirst ▸ known)

theorem Sound.fresh {visited pending : List String} {current : String}
    (sound : Sound counters name value ⟨changed, visited, current :: pending⟩)
    (order : found.Perm
      ((changed.directlyBelow current).filter fun other => other ∉ current :: visited)) :
    Sound counters name value
      ⟨changed.clear found, current :: visited, found ++ pending⟩ := by
  have isFound : ∀ other, other ∈ found ↔
      counters.superior? other = some current ∧ other ∉ current :: visited := by
    intro other
    rw [order.mem_iff, List.mem_filter, mem_directlyBelow, decide_eq_true_iff]
    exact iff_of_eq (congrArg (· other = _ ∧ _) sound.resets.superiors)
  have more : ∀ other, Knows ⟨changed.clear found, current :: visited, found ++ pending⟩ other ↔
      Knows ⟨changed, visited, current :: pending⟩ other ∨ other ∈ found := by
    intro other
    simp only [Knows, List.mem_cons, List.mem_append]
    tauto
  have begun : name ∈ current :: visited := by
    rcases sound.begun with visited | isFirst
    · exact List.mem_cons_of_mem current visited
    · exact List.mem_cons.mpr (.inl (List.head_eq_of_cons_eq isFirst).symm)
  have apart : name ∉ found := fun member => ((isFound name).mp member).2 begun
  refine ⟨(sound.resets.clear apart).congr more, ?_, ?_, .inl begun⟩
  · intro other known
    rcases (more other).mp known with before | new
    · exact sound.leads other before
    · obtain ⟨steps, leads⟩ := sound.leads current (.inr List.mem_cons_self)
      refine ⟨steps + 1, ?_⟩
      rw [above?_succ, ((isFound other).mp new).1]
      exact leads
  · intro above isVisited other isAbove
    rw [more]
    rcases List.mem_cons.mp isVisited with rfl | before
    · -- Below the name that is visited now, a counter was visited before or is found.
      by_cases known : other ∈ above :: visited
      · rcases List.mem_cons.mp known with rfl | known
        · exact .inl (.inr List.mem_cons_self)
        · exact .inl (.inl known)
      · exact .inr ((isFound other).mpr ⟨isAbove, known⟩)
    · exact .inl (sound.closed above before other isAbove)

theorem Sound.step {pass next : Pass} (sound : pass.Sound counters name value)
    (step : Step pass next) : next.Sound counters name value := by
  cases step with
  | seen known => exact sound.seen known
  | fresh new order => exact sound.fresh order

theorem Sound.run {pass last : Pass} (sound : pass.Sound counters name value)
    (run : Relation.ReflTransGen Step pass last) : last.Sound counters name value := by
  induction run with
  | refl => exact sound
  | tail _ step ih => exact ih.step step

/-- When nothing is pending, exactly the names that lead to the counter are known. -/
theorem Sound.knows_iff {pass : Pass} (sound : pass.Sound counters name value)
    (done : pass.pending = []) : pass.Knows other ↔ counters.Leads other name := by
  have visited_of_knows : ∀ other, pass.Knows other → other ∈ pass.visited := by
    rintro other (visited | pending)
    · exact visited
    · rw [done] at pending
      cases pending
  constructor
  · exact sound.leads other
  · rintro ⟨steps, leads⟩
    induction steps generalizing other with
    | zero =>
        obtain rfl := Option.some.inj leads
        refine sound.begun.imp_right fun isFirst => ?_
        rw [isFirst] at done
        cases done
    | succ steps ih =>
        obtain ⟨above, isAbove, leads⟩ := Option.bind_eq_some_iff.mp leads
        exact sound.closed above (visited_of_knows above (ih leads)) other isAbove

/-- Names of counters and pending names are the only ones that will be visited. -/
def Within (names : List String) (pass : Pass) : Prop :=
  pass.counters.list.map Counter.name ⊆ names ∧ pass.pending ⊆ names

theorem Within.step {names : List String} {pass next : Pass} (within : pass.Within names)
    (step : Step pass next) : next.Within names := by
  obtain ⟨known, pending⟩ := within
  cases step with
  | seen => exact ⟨known, (List.cons_subset.mp pending).2⟩
  | fresh new order =>
      refine ⟨(names_revalue _ _).symm ▸ known, ?_⟩
      refine List.append_subset.mpr ⟨fun other member => ?_, (List.cons_subset.mp pending).2⟩
      have isBelow := (List.mem_filter.mp (order.mem_iff.mp member)).1
      exact known (List.mem_filter.mp isBelow).1

/-- A step visits a name for the first time, or leaves fewer names pending. -/
theorem lt_of_step {names : List String} {pass next : Pass} (within : pass.Within names)
    (step : Step pass next) :
    Prod.Lex (· < ·) (· < ·)
      ((names.filter (· ∉ next.visited)).length, next.pending.length)
      ((names.filter (· ∉ pass.visited)).length, pass.pending.length) := by
  cases step with
  | seen => exact .right _ (Nat.lt_succ_self _)
  | @fresh counters visited pending found current new order =>
      refine .left _ _ ?_
      have isLeft : current ∈ names.filter (· ∉ visited) :=
        List.mem_filter.mpr ⟨within.2 List.mem_cons_self, by simpa using new⟩
      have fewer : names.filter (· ∉ current :: visited) =
          (names.filter (· ∉ visited)).filter (· ≠ current) := by
        rw [List.filter_filter]
        simp only [List.mem_cons, not_or, Bool.decide_and]
      rw [fewer]
      exact List.length_filter_lt_length_iff_exists.mpr ⟨current, isLeft, by simp⟩

/-- Every pass comes to its end. -/
theorem step_ends (pass : Pass) : Acc (fun next pass => Step pass next) pass := by
  suffices ends : ∀ names pass, Within names pass → Acc (fun next pass => Step pass next) pass by
    refine ends (pass.counters.list.map Counter.name ++ pass.pending) pass ⟨?_, ?_⟩
    · exact List.subset_append_left _ _
    · exact List.subset_append_right _ _
  intro names pass within
  let size (pass : Pass) := ((names.filter (· ∉ pass.visited)).length, pass.pending.length)
  induction pass using
    (InvImage.wf size (WellFounded.prod_lex Nat.lt_wfRel.wf Nat.lt_wfRel.wf)).induction with
  | _ pass ih =>
      exact Acc.intro pass fun next step => ih next (lt_of_step within step) (within.step step)

/-- A pass can go on as long as a name is pending. -/
theorem pending_eq_nil {pass : Pass} (stops : ∀ next, ¬Step pass next) : pass.pending = [] := by
  obtain ⟨counters, visited, pending⟩ := pass
  cases pending with
  | nil => rfl
  | cons current pending =>
      by_cases known : current ∈ visited
      · exact absurd (.seen known) (stops _)
      · exact absurd (.fresh known (.refl _)) (stops _)

end Pass

/-- What a change of a counter leaves behind.  It is as described, and what every pass over
the counters below comes to, in whatever order it finds them. -/
structure Settles (counters : Counters) (name : String) (value : Int) (changed : Counters) :
    Prop where
  resets : counters.Resets name value (counters.Leads · name) changed
  ends : Acc (fun next pass => Pass.Step pass next) (.start counters name value)
  anyOrder : ∀ last, Relation.ReflTransGen Pass.Step (.start counters name value) last →
    (∀ next, ¬Pass.Step last next) → last.counters.value? = changed.value?

theorem settles_update (isOld : counters.value? name = some old) (change : Int → Int) :
    counters.Settles name (change old) (counters.update name change) where
  resets := resets_update isOld change
  ends := Pass.step_ends _
  anyOrder := by
    intro last run stops
    have sound := (Pass.sound_start isOld (change old)).run run
    have below : ∀ other, counters.Leads other name ↔ last.Knows other :=
      fun _ => (sound.knows_iff (Pass.pending_eq_nil stops)).symm
    exact (sound.resets.congr below).value?_eq (resets_update isOld change)

theorem exists_settles (isOld : counters.value? name = some old) (change : Int → Int) :
    ∃ changed, counters.update? name change = some changed ∧
      counters.Settles name (change old) changed :=
  ⟨_, if_pos (contains_of_value? isOld), settles_update isOld change⟩

theorem update?_eq_none (unknown : counters.contains name = false) (change : Int → Int) :
    counters.update? name change = none := by
  rw [Counters.update?, unknown, if_neg Bool.false_ne_true]

/-- A change that is not possible leaves the engine as it is. -/
theorem changeCounters_of_none {engine : Engine} {change : Counters → Option Counters}
    (impossible : change engine.counters = none) :
    Engine.changeCounters change engine = .ok false engine := by
  simp only [Engine.changeCounters, Engine.modifyGet_run, impossible]

/-- Setting, adding to and stepping a counter gives it its new value, puts the counters
below it back to zero and leaves everything else as it is.  If there is no such counter,
nothing changes at all. -/
theorem changes_reset (counters : Counters) (name : String) (value : Int) :
    (∀ old, counters.value? name = some old →
      (∃ changed, counters.set? name value = some changed ∧
        counters.Settles name value changed) ∧
      (∃ changed, counters.add? name value = some changed ∧
        counters.Settles name (max (-maxNumber) (min (old + value) maxNumber)) changed) ∧
      ∃ changed, counters.step? name = some changed ∧
        counters.Settles name (max (-maxNumber) (min (old + 1) maxNumber)) changed) ∧
    (counters.contains name = false →
      ∀ change ∈ [(set? · name value), (add? · name value), (step? · name)],
        change counters = none ∧
        ∀ engine : Engine, engine.counters = counters →
          Engine.changeCounters change engine = .ok false engine) := by
  constructor
  · intro old isOld
    exact ⟨exists_settles isOld _, exists_settles isOld _, exists_settles isOld _⟩
  · intro unknown change member
    have impossible : change counters = none := by
      fin_cases member <;> exact update?_eq_none unknown _
    refine ⟨impossible, ?_⟩
    rintro engine rfl
    exact changeCounters_of_none impossible

/-- Three counters below each other in a circle, and one below a name that is no counter.
The one that is stepped keeps its new value, although it is below itself. -/
theorem changes_reset_circle :
    let counters : Counters := ⟨[⟨"a", some "c", 7⟩, ⟨"b", some "a", 5⟩, ⟨"c", some "b", 4⟩,
      ⟨"d", some "ghost", 3⟩]⟩
    let stepped : Counters := ⟨[⟨"a", some "c", 8⟩, ⟨"b", some "a", 0⟩, ⟨"c", some "b", 0⟩,
      ⟨"d", some "ghost", 3⟩]⟩
    counters.value? "a" = some 7 ∧ counters.step? "a" = some stepped ∧
      counters.Settles "a" 8 stepped ∧
      counters.contains "ghost" = false ∧ counters.set? "ghost" 1 = none := by
  intro counters stepped
  have isOld : counters.value? "a" = some 7 := by decide +kernel
  have isStepped : counters.step? "a" = some stepped := by decide +kernel
  have unknown : counters.contains "ghost" = false := by decide +kernel
  obtain ⟨changed, isChanged, settles⟩ := ((changes_reset counters "a" 0).1 7 isOld).2.2
  obtain rfl := Option.some.inj (isStepped.symm.trans isChanged)
  have impossible := ((changes_reset counters "ghost" 1).2 unknown _ List.mem_cons_self).1
  exact ⟨isOld, isStepped, settles, unknown, impossible⟩

end Counters

end TexTree
