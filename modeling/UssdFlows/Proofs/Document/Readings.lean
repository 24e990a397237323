import Mathlib.Data.List.Forall2
import UssdFlows.Document.Fields

/-!
# What a reading comes to

A reading is put together from the readings of parts (`Checked`).  This file takes
it apart again: a reading that succeeds has read each part
(`Checked.items_eq_ok_iff`, `Naming.optional_eq_ok_iff`), and a reading that raises
something does so in one of them (`Checked.Raises`).
-/

namespace UssdFlows

variable {α β : Type}

namespace Checked

/-! ## Readings that succeed -/

theorem map_eq_ok_iff {f : α → β} {x : Checked α} {b : β} :
    f <$> x = ok b ↔ ∃ a, x = ok a ∧ f a = b := by
  cases x <;> simp [Functor.map, map]

theorem andThen_eq_ok_iff {x : Checked α} {f : α → Checked β} {b : β} :
    x.andThen f = ok b ↔ ∃ a, x = ok a ∧ f a = ok b := by
  cases x <;> simp [andThen]

theorem inside_eq_ok_iff {part : PathPart} {x : Checked α} {a : α} :
    inside part x = ok a ↔ x = ok a := by
  cases x <;> simp [inside]

/-- A list is read if each of its items is. -/
theorem items_eq_ok_iff {read : Value → Checked α} {vs : List Value} {xs : List α} {i : Nat} :
    items read i vs = ok xs ↔ List.Forall₂ (fun v x => read v = ok x) vs xs := by
  induction vs generalizing i xs with
  | nil =>
      rw [items, List.forall₂_nil_left_iff, ok.injEq]
      exact eq_comm
  | cons v rest ih =>
      rw [items, seq_eq_ok_iff, List.forall₂_cons_left_iff]
      constructor
      · rintro ⟨g, ys, hg, hys, rfl⟩
        obtain ⟨y, hy, rfl⟩ := map_eq_ok_iff.1 hg
        exact ⟨y, ys, inside_eq_ok_iff.1 hy, ih.1 hys, rfl⟩
      · rintro ⟨y, ys, hy, hys, rfl⟩
        exact ⟨List.cons y, ys, map_eq_ok_iff.2 ⟨y, inside_eq_ok_iff.2 hy, rfl⟩, ih.2 hys, rfl⟩

/-! ## Readings that fail -/

/-- A reading fails, and one of its problems is a part that could not be examined. -/
def Raises (x : Checked α) : Prop := ∃ ps, x = bad ps ∧ ∃ p ∈ ps, p.isRaised = true

@[simp]
theorem raises_ok {a : α} : ¬ Raises (ok a) := by
  rintro ⟨_, h, -⟩
  cases h

@[simp]
theorem raises_pure {a : α} : ¬ Raises (pure a : Checked α) := raises_ok

@[simp]
theorem raises_bad {ps : List Problem} :
    Raises (bad ps : Checked α) ↔ ∃ p ∈ ps, p.isRaised = true := by
  simp [Raises]

@[simp]
theorem raises_fail {c : Cause} : Raises (fail c : Checked α) ↔ ∃ why, c = .raised why := by
  rw [fail, raises_bad]
  cases c <;> simp [Problem.isRaised]

@[simp]
theorem raises_map {f : α → β} {x : Checked α} : Raises (f <$> x) ↔ Raises x := by
  cases x with
  | ok a => exact iff_of_false raises_ok raises_ok
  | bad ps => exact raises_bad.trans raises_bad.symm

/-- The problems of a joint reading are those of both sides. -/
@[simp]
theorem raises_seq {f : Checked (α → β)} {x : Checked α} :
    Raises (f <*> x) ↔ Raises f ∨ Raises x := by
  cases f with
  | ok g =>
      cases x with
      | ok a => simp [Seq.seq, seq]
      | bad qs => simp [Seq.seq, seq]
  | bad ps =>
      cases x with
      | ok a => simp [Seq.seq, seq]
      | bad qs => simp [seq_bad, or_and_right, exists_or]

@[simp]
theorem raises_inside {part : PathPart} {x : Checked α} :
    Raises (inside part x) ↔ Raises x := by
  cases x <;> simp [inside, Problem.isRaised]

theorem raises_andThen {x : Checked α} {f : α → Checked β} :
    Raises (x.andThen f) ↔ Raises x ∨ ∃ a, x = ok a ∧ Raises (f a) := by
  cases x <;> simp [andThen]

@[simp]
theorem raises_items {read : Value → Checked α} {i : Nat} {vs : List Value} :
    Raises (items read i vs) ↔ ∃ v ∈ vs, Raises (read v) := by
  induction vs generalizing i with
  | nil => simp [items]
  | cons v rest ih => simp [items, ih]

end Checked

namespace Naming

variable {n : Naming} {members : List (Value × Value)} {field : String} {read : Value → Checked α}
  {a absent : α}

theorem required_eq_ok_iff :
    n.required members field read = .ok a ↔
      ∃ v, n.value? members field = some v ∧ read v = .ok a := by
  rw [required, Checked.inside_eq_ok_iff]
  cases n.value? members field <;> simp [Checked.fail]

theorem optional_eq_ok_iff :
    n.optional members field absent read = .ok a ↔
      (n.value? members field = none ∧ absent = a) ∨
        ∃ v, n.value? members field = some v ∧ read v = .ok a := by
  rw [optional]
  cases n.value? members field <;> simp [Checked.inside_eq_ok_iff]

@[simp]
theorem raises_required : (n.required members field read).Raises ↔
    ∃ v, n.value? members field = some v ∧ (read v).Raises := by
  rw [required, Checked.raises_inside]
  cases n.value? members field <;> simp

@[simp]
theorem raises_optional : (n.optional members field absent read).Raises ↔
    ∃ v, n.value? members field = some v ∧ (read v).Raises := by
  rw [optional]
  cases n.value? members field <;> simp

end Naming

theorem Value.readRecord_eq_ok_iff {other : Cause} {read : List (Value × Value) → Checked α}
    {v : Value} {a : α} :
    v.readRecord other read = .ok a ↔ ∃ members, v = .record members ∧ read members = .ok a := by
  cases v <;> simp [readRecord, Checked.fail]

/-- Only a record has members that may raise something. -/
theorem Value.raises_readRecord {other : Cause} {read : List (Value × Value) → Checked α}
    {v : Value} (h : ∀ why, other ≠ .raised why) :
    (v.readRecord other read).Raises ↔
      ∃ members, v = .record members ∧ (read members).Raises := by
  cases v <;> simp [readRecord, h]

end UssdFlows
