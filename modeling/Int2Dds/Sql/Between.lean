import Int2Dds.Sql.Lexer
import Mathlib.Data.Char
import Mathlib.Data.Int.Order.Basic
import Mathlib.Data.List.Lex
import Mathlib.Order.Lattice

/-!
# BETWEEN and its negation

The evaluation of `f BETWEEN a AND b` and `f NOT BETWEEN a AND b` on the value of a field; `none` is an error. Floating
point numbers are any linear order with a map from the integers.

`between_negates_iff` : when the two are opposites, and a parameter stands for the literal it is read as.
-/

namespace Int2Dds.Sql

structure Evaluation (F : Type) where
  /-- `as f64`. -/
  ofInt : Int → F
  parseF64 : Text → Option F
  parameters : List Text
  /-- `get_field_value`. -/
  field : Option (Parameter F)

namespace Evaluation

variable {F : Type} (ev : Evaluation F)

/-- A parameter is read as an integer, a float, a character or a string. -/
def resolveParameter : Parameter F → Option (Parameter F)
  | .parameter n => (ev.parameters[n]?).map fun text =>
      match parseI128 10 text, ev.parseF64 text, text with
      | some v, _, _ => .integerValue v
      | none, some v, _ => .floatValue v
      | none, none, [c] => .charValue c
      | none, none, s => .string s
  | p => some p

/-- What can be compared with each other: numbers, characters, strings, the values of one enumeration. -/
def kindOf : Parameter F → Option (Nat × Option Text)
  | .integerValue _ | .floatValue _ => some (0, none)
  | .charValue _ => some (1, none)
  | .string _ => some (2, none)
  | .enumeratedValue t _ => some (3, t)
  | .parameter _ => none

def Comparable (value a b : Parameter F) : Prop :=
  kindOf value ≠ none ∧ kindOf a = kindOf value ∧ kindOf b = kindOf value

def Mixed : Parameter F → Parameter F → Parameter F → Prop
  | .integerValue _, .floatValue _, .floatValue _ => True
  | _, _, _ => False

def inRange {α : Type} [LinearOrder α] (negated : Bool) (value a b : α) : Bool :=
  if negated then decide (a > value) || decide (b < value) else decide (a ≤ value) && decide (value ≤ b)

variable {ev} {value start stop a b : Parameter F} {negated : Bool}

theorem resolveParameter_some (h : ev.resolveParameter start = some a) :
    kindOf a ≠ none ∧ ev.resolveParameter a = some a := by
  cases start with
  | parameter n =>
    obtain ⟨text, -, rfl⟩ := Option.map_eq_some_iff.1 h
    split <;> simp [kindOf, resolveParameter]
  | _ => cases h; simp [kindOf, resolveParameter]

theorem Mixed.comparable (h : Mixed value a b) : Comparable value a b := by
  cases value <;> cases a <;> cases b <;> simp_all [Mixed, Comparable, kindOf]

variable (ev) [LinearOrder F]

/-- The table of the values that can be compared. Only that of NOT BETWEEN has integers between floats. -/
def compareRange (negated : Bool) : Parameter F → Parameter F → Parameter F → Option Bool
  | .integerValue v, .integerValue a, .integerValue b => some (inRange negated v a b)
  | .charValue v, .charValue a, .charValue b => some (inRange negated v a b)
  | .floatValue v, .floatValue a, .floatValue b => some (inRange negated v a b)
  | .string v, .string a, .string b => some (inRange negated v a b)
  | .enumeratedValue t v, .enumeratedValue ta a, .enumeratedValue tb b =>
    if t = ta ∧ t = tb then some (inRange negated v a b) else none
  | .floatValue v, .integerValue a, .integerValue b => some (inRange negated v (ev.ofInt a) (ev.ofInt b))
  | .integerValue v, .floatValue a, .integerValue b => some (inRange negated (ev.ofInt v) a (ev.ofInt b))
  | .integerValue v, .integerValue a, .floatValue b => some (inRange negated (ev.ofInt v) (ev.ofInt a) b)
  | .floatValue v, .integerValue a, .floatValue b => some (inRange negated v (ev.ofInt a) b)
  | .floatValue v, .floatValue a, .integerValue b => some (inRange negated v a (ev.ofInt b))
  | .integerValue v, .floatValue a, .floatValue b => if negated then some (inRange negated (ev.ofInt v) a b) else none
  | _, _, _ => none

/-- `Predicate::evaluate` of a range. Parameters are looked up when both bounds are parameters. -/
def between (negated : Bool) (start stop : Parameter F) : Option Bool := do
  let value ← ev.field
  match start, stop with
  | .parameter _, .parameter _ =>
    ev.compareRange negated value (← ev.resolveParameter start) (← ev.resolveParameter stop)
  | _, _ => ev.compareRange negated value start stop

theorem inRange_not {α : Type} [LinearOrder α] (value a b : α) : inRange true value a b = !inRange false value a b := by
  simp [inRange, ← not_le]

theorem compareRange_isSome_iff : (ev.compareRange negated value a b).isSome ↔
    Comparable value a b ∧ (Mixed value a b → negated = true) := by
  cases value <;> cases a <;> cases b <;> simp [compareRange, Comparable, kindOf, Mixed, @eq_comm (Option Text)]

theorem compareRange_not_iff :
    ev.compareRange true value a b = (ev.compareRange false value a b).map not ↔ ¬ Mixed value a b := by
  cases value <;> cases a <;> cases b <;> simp [compareRange, Mixed, inRange_not]

variable {ev}

/-- Bounds that are parameters, or that are none, are compared at their values; otherwise nothing is. -/
theorem between_eq : ev.between negated start stop =
    if kindOf start = none ↔ kindOf stop = none then
      ev.field.bind fun value => (ev.resolveParameter start).bind fun a =>
        (ev.resolveParameter stop).bind fun b => ev.compareRange negated value a b
    else none := by
  cases start <;> cases stop <;> simp [between, kindOf, resolveParameter, compareRange]

theorem between_literal (ha : ev.resolveParameter start = some a) (hb : ev.resolveParameter stop = some b)
    (hf : ev.field = some value) (negated : Bool) : ev.between negated a b = ev.compareRange negated value a b := by
  simp [between_eq, hf, resolveParameter_some ha, resolveParameter_some hb]

/-- BETWEEN and its negation are opposites and parameters stand for the literals they are read as, exactly when bounds
that can be compared with the field are both parameters or both not, and are not floats around an integer. -/
theorem between_negates_iff :
    (ev.between true start stop = (ev.between false start stop).map not ∧
      ∀ a b, ev.resolveParameter start = some a → ev.resolveParameter stop = some b →
        ∀ negated, ev.between negated start stop = ev.between negated a b) ↔
    ∀ value a b, ev.field = some value → ev.resolveParameter start = some a → ev.resolveParameter stop = some b →
      Comparable value a b → (kindOf start = none ↔ kindOf stop = none) ∧ ¬ Mixed value a b := by
  constructor
  · rintro ⟨hnot, hsame⟩ value a b hf ha hb hcomparable
    have hliteral := between_literal ha hb hf
    have hsome := ev.compareRange_isSome_iff.2 ⟨hcomparable, fun _ => rfl⟩
    rw [← hliteral, ← hsame a b ha hb, between_eq] at hsome
    refine ⟨?_, ev.compareRange_not_iff.1 ?_⟩
    · by_contra hiff
      simp [hiff] at hsome
    · rw [← hliteral, ← hliteral, ← hsame a b ha hb, ← hsame a b ha hb, hnot]
  · intro h
    have hsame : ∀ a b, ev.resolveParameter start = some a → ev.resolveParameter stop = some b →
        ∀ negated, ev.between negated start stop = ev.between negated a b := by
      intro a b ha hb negated
      cases hf : ev.field with
      | none => simp [between_eq, hf]
      | some value =>
        rw [between_literal ha hb hf, between_eq, hf, ha, hb]
        split_ifs with hiff
        · rfl
        · -- nothing is compared, and nothing could be
          symm
          rw [← Option.not_isSome_iff_eq_none, compareRange_isSome_iff]
          exact fun hc => hiff (h value a b hf ha hb hc.1).1
    refine ⟨?_, hsame⟩
    cases hf : ev.field with
    | none => simp [between_eq, hf]
    | some value =>
      cases ha : ev.resolveParameter start with
      | none => simp [between_eq, ha]
      | some a =>
        cases hb : ev.resolveParameter stop with
        | none => simp [between_eq, hb]
        | some b =>
          rw [hsame a b ha hb, hsame a b ha hb, between_literal ha hb hf, between_literal ha hb hf,
            compareRange_not_iff]
          exact fun hm => (h value a b hf ha hb hm.comparable).2 hm

theorem between_undecided : let ev : Evaluation Int := ⟨id, fun _ => none, [], some (.integerValue 5)⟩
    ev.between true (.floatValue 1) (.floatValue 9) = some false ∧
      ev.between false (.floatValue 1) (.floatValue 9) = none := by decide

end Evaluation

end Int2Dds.Sql
