import UssdFlows.Flow.Basic
import UssdFlows.Number.Reading

/-!
# Conditions

A condition compares the value of a session variable with a fixed text.  The
four comparisons by size work on numbers where both sides denote finite
numbers, and on the texts otherwise; the two searches always work on the
texts.  A variable without a value satisfies no condition, not even that of
being different.
-/

namespace UssdFlows

/-- The two sides of a comparison by size. -/
inductive Operands where
  | numbers (left right : Binary64)
  | texts (left right : String)
  deriving DecidableEq, Repr

namespace Operands

/-- The sides as numbers if both of them denote one. -/
def ofTexts (left right : String) : Operands :=
  match Number.finiteOf? left, Number.finiteOf? right with
  | some a, some b => numbers a b
  | _, _ => texts left right

/-- Whether the sides are equal. -/
def equal : Operands → Bool
  | numbers a b => a.equal b
  | texts a b => a == b

/-- Whether the left side is smaller. -/
def less : Operands → Bool
  | numbers a b => a.less b
  | texts a b => a < b

/-- Whether the left side is greater. -/
def greater : Operands → Bool
  | numbers a b => b.less a
  | texts a b => b < a

end Operands

/-- Whether the characters of a text occur one after another in another one. -/
def occursIn (part : List Char) : List Char → Bool
  | [] => part.isEmpty
  | c :: rest => part.isPrefixOf (c :: rest) || occursIn part rest

/-- Whether a comparison holds between two texts. -/
def Operator.compares (o : Operator) (left right : String) : Bool :=
  match o with
  | equals => (Operands.ofTexts left right).equal
  | notEquals => !(Operands.ofTexts left right).equal
  | greaterThan => (Operands.ofTexts left right).greater
  | lessThan => (Operands.ofTexts left right).less
  | contains => occursIn right.toList left.toList
  | startsWith => right.toList.isPrefixOf left.toList

/-- Whether a comparison holds of a value that may be missing. -/
def Operator.holds (o : Operator) (left : Option String) (right : String) : Bool :=
  match left with
  | none => false
  | some s => o.compares s right

/-- Whether a condition holds under the variables of a session. -/
def Condition.holds (c : Condition) (bindings : Dict String) : Bool :=
  c.operator.holds ((bindings.find? c.variableName).map Prod.snd) c.value

/-- A text occurs in another one exactly if that one is the text with something
around it. -/
theorem occursIn_iff {part whole : List Char} :
    occursIn part whole = true ↔ ∃ before after, whole = before ++ part ++ after := by
  induction whole with
  | nil =>
    simp only [occursIn, List.isEmpty_iff]
    constructor
    · rintro rfl
      exact ⟨[], [], rfl⟩
    · rintro ⟨before, after, h⟩
      simp only [List.append_assoc, List.nil_eq, List.append_eq_nil_iff] at h
      exact h.2.1
  | cons c rest ih =>
    simp only [occursIn, Bool.or_eq_true, ih, List.isPrefixOf_iff_prefix]
    constructor
    · rintro (⟨after, h⟩ | ⟨before, after, h⟩)
      · exact ⟨[], after, by simp [h]⟩
      · exact ⟨c :: before, after, by simp [h]⟩
    · rintro ⟨before, after, h⟩
      cases before with
      | nil => exact Or.inl ⟨after, by simpa using h.symm⟩
      | cons d more =>
        simp only [List.cons_append, List.cons.injEq] at h
        exact Or.inr ⟨more, after, by simpa using h.2⟩

end UssdFlows
