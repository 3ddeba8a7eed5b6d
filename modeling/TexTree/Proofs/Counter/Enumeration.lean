import TexTree.Proofs.Counter.Printing
import TexTree.Session

/-!
# The counters of enumerations

Four counters number the items of enumerations inside of each other.  Each of them is
subordinate to the one before it, and has a printed form of its own: decimal digits, small
letters, small roman numerals and capital letters.
-/

namespace TexTree

namespace Enumeration

/-- The counters of enumerations with the given values, the outermost first. -/
def counters (values : Nat → Int) : Counters :=
  ⟨[⟨"enumi", none, values 0⟩, ⟨"enumii", some "enumi", values 1⟩,
    ⟨"enumiii", some "enumii", values 2⟩, ⟨"enumiv", some "enumiii", values 3⟩]⟩

/-- The name of a counter. -/
def counter (level : Nat) : String := Engine.enumerationCounters.getD level "enumi"

/-- The printed form of a counter. -/
def template (level : Nat) : Template :=
  match level with
  | 0 => .ofCounter "enumi"
  | 1 => ⟨"$\x7benumii.alph\x7d"⟩
  | 2 => ⟨"$\x7benumiii.roman\x7d"⟩
  | _ => ⟨"$\x7benumiv.Alph\x7d"⟩

/-- A number as the items of an enumeration show it that stands in so many others. -/
def label (level : Nat) (value : Int) : String :=
  match level with
  | 0 => toString value
  | 1 => Numeral.alphabetic value
  | 2 => Numeral.roman value
  | _ => Numeral.capital (Numeral.alphabetic value)

/-- The number of the item at a position.  The greatest number is not passed. -/
def numberAt (position : Nat) : Nat := min position maxNumber.toNat

/-- There are four levels. -/
theorem level_cases {level : Nat} (small : level < 4) :
    level = 0 ∨ level = 1 ∨ level = 2 ∨ level = 3 := by
  omega

/-! ## Changes -/

/-- The values when one of them has been changed, and those below are zero. -/
def update (values : Nat → Int) (level : Nat) (value : Int) : Nat → Int := fun other =>
  if other = level then value else if level < other then 0 else values other

@[simp] theorem update_self (values : Nat → Int) (level : Nat) (value : Int) :
    update values level value level = value := if_pos rfl

/-- The values further outside stay. -/
theorem update_of_lt (values : Nat → Int) {level other : Nat} (value : Int)
    (outer : other < level) : update values level value other = values other := by
  rw [update, if_neg (by omega), if_neg (by omega)]

/-- A changed counter puts those below back to zero. -/
theorem update?_counters (values : Nat → Int) (change : Int → Int) {level : Nat}
    (small : level < 4) :
    (counters values).update? (counter level) change =
      some (counters (update values level (change (values level)))) := by
  rcases level_cases small with rfl | rfl | rfl | rfl
  all_goals rfl

/-- A counter goes on to the next position. -/
theorem step?_counters (values : Nat → Int) {level position : Nat} (small : level < 4)
    (isValue : values level = numberAt position) :
    (counters values).step? (counter level) =
      some (counters (update values level (numberAt (position + 1)))) := by
  have next : max (-maxNumber) (min ((numberAt position : Int) + 1) maxNumber) =
      numberAt (position + 1) := by
    simp only [numberAt, maxNumber, Int.reduceToNat]
    omega
  rw [Counters.step?, Counters.add?, update?_counters values _ small, isValue, next]

/-- Below a counter that was put back nothing is left to put back. -/
theorem update_update_zero (values : Nat → Int) {level other : Nat} (inside : level ≤ other) :
    update (update values level 0) other 0 = update values level 0 := by
  funext position
  unfold update
  split_ifs
  all_goals first | rfl | omega

/-- Putting back a counter and those below, one after the other. -/
theorem restart_counters (values : Nat → Int) {level : Nat} (small : level < 4) :
    (Engine.enumerationCounters.drop level).foldl
        (fun counters counter => (counters.set? counter 0).getD counters) (counters values) =
      counters (update values level 0) := by
  have first : (counters values).set? (counter level) 0 =
      some (counters (update values level 0)) := update?_counters values _ small
  have again : ∀ others : List Nat, (∀ other ∈ others, level ≤ other ∧ other < 4) →
      (others.map counter).foldl
          (fun counters counter => (counters.set? counter 0).getD counters)
          (counters (update values level 0)) =
        counters (update values level 0) := by
    intro others
    induction others with
    | nil => exact fun _ => rfl
    | cons other rest ih =>
        intro inside
        obtain ⟨isInside, small'⟩ := inside other List.mem_cons_self
        have same : (counters (update values level 0)).set? (counter other) 0 =
            some (counters (update values level 0)) := by
          rw [Counters.set?, update?_counters _ _ small', update_update_zero values isInside]
        rw [List.map_cons, List.foldl_cons, same, Option.getD_some]
        exact ih fun later member => inside later (List.mem_cons_of_mem _ member)
  have names : Engine.enumerationCounters.drop level =
      counter level :: (List.range' (level + 1) (3 - level)).map counter := by
    rcases level_cases small with rfl | rfl | rfl | rfl
    all_goals rfl
  rw [names, List.foldl_cons, first, Option.getD_some]
  exact again _ fun other member => by
    rw [List.mem_range'_1] at member
    omega

/-! ## Printed forms -/

/-- The style that a template asks for. -/
def style? (level : Nat) : Option String :=
  match level with
  | 0 => none
  | 1 => some "alph"
  | 2 => some "roman"
  | _ => some "Alph"

/-- A template refers to its counter. -/
theorem pieces_template {level : Nat} (small : level < 4) :
    Template.pieces (template level).text.toList = [.reference (counter level) (style? level)] ∧
      Text.afterMark? "the" (counter level) = none := by
  revert level
  decide +kernel

theorem get?_counters (values : Nat → Int) {level : Nat} (small : level < 4) :
    ∃ resetBy, (counters values).get? (counter level) =
      some ⟨counter level, resetBy, values level⟩ := by
  rcases level_cases small with rfl | rfl | rfl | rfl
  all_goals exact ⟨_, rfl⟩

/-- The style of a counter gives its label. -/
theorem format?_style? (found : Counter) {level : Nat} (small : level < 4) :
    found.format? ((style? level).getD "arabic") = some (label level found.value) := by
  rcases level_cases small with rfl | rfl | rfl | rfl
  all_goals rfl

theorem isNumeral_label (level : Nat) {number : Nat} (positive : 0 < number) :
    IsNumeral (label level number).toList := by
  obtain _ | _ | _ | level := level
  · exact isNumeral_toString positive
  · exact isNumeral_alphabetic number
  · exact isNumeral_roman number
  · exact isNumeral_capital_alphabetic number

/-- Each counter prints its value as a label. -/
theorem render_template (values : Nat → Int) {level number : Nat} (small : level < 4)
    (isValue : values level = number) (positive : 0 < number)
    (formOf : String → Option Template) :
    (template level).render (counters values) formOf = (label level number, []) := by
  obtain ⟨isReference, isCounter⟩ := pieces_template small
  obtain ⟨resetBy, found⟩ := get?_counters values small
  have formatted := format?_style? ⟨counter level, resetBy, values level⟩ small
  have isNumeral : IsNumeral (label level (values level)).toList :=
    isValue ▸ isNumeral_label level positive
  rw [Template.render_reference isReference isCounter found (by rwa [formatted]), formatted,
    isValue]
  rfl

end Enumeration

namespace Engine

open Enumeration

variable {engine : Engine} {name : String}

/-! ## The beginning -/

/-- The names of the printed forms are bound to the templates. -/
def Templates (engine : Engine) : Prop :=
  ∀ level < 4, engine.scopes.base.commands.get? ("the" ++ counter level) =
    some (.printedCounter (counter level) (template level))

theorem get?_setTemplate (engine : Engine) (other name : String) (template : Template) :
    (engine.setTemplate other template).scopes.base.commands.get? name =
      if "the" ++ other = name then some (.printedCounter other template)
      else engine.scopes.base.commands.get? name := by
  rw [setTemplate, Scopes.setCommand, if_pos rfl, Frame.bind, Table.get?_insert]

theorem get?_createCounter {other : String} {superior : Option String}
    (creates : (engine.counters.create? other superior 0).isSome) (name : String) :
    (engine.createCounter other superior 0).scopes.base.commands.get? name =
      if "the" ++ other = name then some (.printedCounter other (.ofCounter other))
      else engine.scopes.base.commands.get? name := by
  obtain ⟨created, isCreated⟩ := Option.isSome_iff_exists.mp creates
  rw [createCounter, isCreated]
  simp only [Scopes.setCommand, if_true, Frame.bind, Table.get?_insert]

/-- At the beginning all numbers are zero. -/
theorem enumerationCounters_fresh (settings : Settings) (files : Files) (date : Date) :
    (fresh settings files date .empty).counters = Enumeration.counters fun _ => 0 :=
  rfl

theorem templates_fresh (settings : Settings) (files : Files) (date : Date) :
    (fresh settings files date .empty).Templates := by
  intro level small
  unfold fresh createEnumerationCounters
  dsimp only
  simp only [get?_setTemplate]
  rcases level_cases small with rfl | rfl | rfl | rfl
  · simp only [List.foldl_cons, List.foldl_nil]
    rw [get?_createCounter rfl, get?_createCounter rfl, get?_createCounter rfl,
      get?_createCounter rfl]
    simp [counter, enumerationCounters, template]
  all_goals simp [counter, enumerationCounters, template]

end Engine

end TexTree
