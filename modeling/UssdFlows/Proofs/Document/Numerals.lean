import Mathlib.Data.List.TakeWhile
import UssdFlows.Document.Json.Reader

/-!
# Long numbers in JSON texts

Every reader of a JSON text moves along the text: its place counts the characters that
it has passed (`Cursor.In`).  So when a text is not refused for its grammar, a whole number
with too many digits stands in it at the place that is reported (`numeralAt_of_read`).
-/

namespace UssdFlows.Json

variable {cs : List Char} {α β : Type} {c : Cursor}

/-- At a place of a text stands a whole number with so many digits. -/
def NumeralAt (cs : List Char) (position count : Nat) : Prop :=
  ∃ sign digits rest, cs.drop position = sign ++ digits ++ rest ∧ (sign = [] ∨ sign = ['-']) ∧
    (∀ c ∈ digits, c.isDigit = true) ∧ digits.length = count

/-- What is left to read is what stands in the text behind the place. -/
def Cursor.In (cs : List Char) (c : Cursor) : Prop := c.rest = cs.drop c.position

theorem Cursor.In.skip (h : c.In cs) (n : Nat) : (c.skip n).In cs := by
  rw [In, Cursor.skip, h, List.drop_drop]

theorem Cursor.In.skipSpace (h : c.In cs) : c.skipSpace.In cs := h.skip _

/-- A failure that is not one of the grammar, at a whole number with too many digits. -/
def Failure.AtNumeral (cs : List Char) (failure : Failure) : Prop :=
  ∃ count, failure.fault = .tooManyDigits count ∧ Number.digitLimit < count ∧
    NumeralAt cs failure.position count

/-- A reader stays in the text, and refuses it for its grammar or else at a whole number
that has too many digits. -/
structure Follows (cs : List Char) (x : Reading α) : Prop where
  stays : ∀ a next, x = .ok (a, next) → next.In cs
  numeral : ∀ failure, x = .error failure →
    failure.fault.isGrammar = true ∨ failure.AtNumeral cs

theorem follows_ok {a : α} (h : c.In cs) : Follows cs (.ok (a, c)) where
  stays := by
    rintro _ _ ⟨⟩
    exact h
  numeral := nofun

theorem follows_refuse {fault : Fault} (h : fault.isGrammar = true) (position : Nat) :
    Follows cs (refuse fault position : Reading α) where
  stays := nofun
  numeral := by
    rintro _ ⟨⟩
    exact .inl h

theorem follows_tooManyDigits {count position : Nat} (h : Number.digitLimit < count)
    (hnumeral : NumeralAt cs position count) :
    Follows cs (refuse (.tooManyDigits count) position : Reading α) where
  stays := nofun
  numeral := by
    rintro _ ⟨⟩
    exact .inr ⟨count, rfl, h, hnumeral⟩

/-- A failure is passed on. -/
theorem Follows.error {x : Reading α} (h : Follows cs x) {failure : Failure}
    (hx : x = .error failure) : Follows cs (.error failure : Reading β) where
  stays := nofun
  numeral := by
    rintro _ ⟨⟩
    exact h.numeral failure hx

theorem follows_readLongEscape (h : c.In cs) : Follows cs (readLongEscape c) := by
  rw [readLongEscape]
  split
  · exact follows_refuse rfl _
  · split
    · exact follows_refuse rfl _
    · dsimp only
      split
      · split
        · split
          · exact follows_refuse rfl _
          · split
            · exact follows_ok ((h.skip 4).skip 6)
            · exact follows_ok (h.skip 4)
        · exact follows_ok (h.skip 4)
      · exact follows_ok (h.skip 4)

theorem follows_readText (start fuel : Nat) (done : List Nat) (h : c.In cs) :
    Follows cs (readText start fuel done c) := by
  induction fuel generalizing done c with
  | zero => exact follows_refuse rfl _
  | succ fuel ih =>
      rw [readText]
      split
      · exact follows_refuse rfl _
      · exact follows_ok (h.skip 1)
      · exact follows_refuse rfl _
      · have hescape := follows_readLongEscape (h.skip 2)
        split
        · rename_i hread
          exact ih _ (hescape.stays _ _ hread)
        · rename_i hread
          exact hescape.error hread
      · split
        · exact ih _ (h.skip 2)
        · exact follows_refuse rfl _
      · split
        · exact follows_refuse rfl _
        · exact ih _ (h.skip 1)

/-! ## Numbers -/

theorem splitSign_eq (cs : List Char) :
    ∃ sign, cs = sign ++ (splitSign cs).2 ∧ (sign = [] ∨ sign = ['-']) := by
  unfold splitSign
  split
  · exact ⟨['-'], rfl, .inr rfl⟩
  · exact ⟨[], rfl, .inl rfl⟩

theorem wholePart_eq (cs : List Char) :
    ∃ rest, cs = wholePart cs ++ rest ∧ ∀ c ∈ wholePart cs, c.isDigit = true := by
  unfold wholePart
  split
  · rename_i more
    exact ⟨more, rfl, by simp⟩
  · exact ⟨cs.dropWhile Char.isDigit, List.takeWhile_append_dropWhile.symm,
      List.all_eq_true.1 List.all_takeWhile⟩

/-- The digits of a whole number stand behind its sign. -/
theorem numeralAt_wholePart (h : c.In cs) :
    NumeralAt cs c.position (wholePart (splitSign c.rest).2).length := by
  obtain ⟨sign, hsign, hminus⟩ := splitSign_eq c.rest
  obtain ⟨rest, hwhole, hdigits⟩ := wholePart_eq (splitSign c.rest).2
  refine ⟨sign, _, rest, ?_, hminus, hdigits, rfl⟩
  rw [← h, List.append_assoc, ← hwhole, ← hsign]

theorem follows_readNumber (h : c.In cs) : Follows cs (readNumber c) := by
  rw [readNumber]
  dsimp only
  split
  · exact follows_refuse rfl _
  · split
    · split
      · rename_i hlong
        exact follows_tooManyDigits hlong (numeralAt_wholePart h)
      · exact follows_ok (h.skip _)
    · split
      · exact follows_ok (h.skip _)
      · exact follows_refuse rfl _

/-! ## Values -/

theorem follows_values (fuel : Nat) :
    (∀ c : Cursor, c.In cs → Follows cs (readValue fuel c)) ∧
      (∀ done, ∀ c : Cursor, c.In cs → Follows cs (readItems fuel done c)) ∧
      ∀ done, ∀ c : Cursor, c.In cs → Follows cs (readMembers fuel done c) := by
  induction fuel with
  | zero =>
      refine ⟨fun c _ => ?_, fun _ c _ => ?_, fun _ c _ => ?_⟩
      all_goals exact follows_refuse rfl _
  | succ fuel ih =>
      obtain ⟨hvalue, hitems, hmembers⟩ := ih
      refine ⟨fun c h => ?_, fun done c h => ?_, fun done c h => ?_⟩
      · rw [readValue]
        split
        · exact follows_refuse rfl _
        · rename_i more _
          exact follows_readText c.position (more.length + 1) [] (h.skip 1)
        · dsimp only
          split
          · exact follows_ok ((h.skip 1).skipSpace.skip 1)
          · exact hitems _ _ (h.skip 1).skipSpace
        · dsimp only
          split
          · exact follows_ok ((h.skip 1).skipSpace.skip 1)
          · exact hmembers _ _ (h.skip 1).skipSpace
        · split
          · exact follows_ok (h.skip _)
          · exact follows_readNumber h
      · rw [readItems]
        split
        · rename_i hread
          exact (hvalue c h).error hread
        · rename_i hread
          have hnext := ((hvalue c h).stays _ _ hread).skipSpace
          dsimp only
          split
          · exact follows_ok (hnext.skip 1)
          · exact hitems _ _ (hnext.skip 1).skipSpace
          · exact follows_refuse rfl _
      · rw [readMembers]
        split
        · rename_i more _
          have htext := follows_readText c.position (more.length + 1) [] (h.skip 1)
          split
          · rename_i hread
            exact htext.error hread
          · rename_i hread
            have hname := (htext.stays _ _ hread).skipSpace
            dsimp only
            split
            · have hv := hvalue _ (hname.skip 1).skipSpace
              split
              · rename_i hread
                exact hv.error hread
              · rename_i hread
                have hnext := (hv.stays _ _ hread).skipSpace
                split
                · exact follows_ok (hnext.skip 1)
                · exact hmembers _ _ (hnext.skip 1).skipSpace
                · exact follows_refuse rfl _
            · exact follows_refuse rfl _
        · exact follows_refuse rfl _

/-- **Long numbers.**  A text that is not refused for its grammar has a whole number with
too many digits at the place where it is refused. -/
theorem numeralAt_of_read {text : String} {failure : Failure}
    (h : read text = .error failure) :
    failure.fault.isGrammar = true ∨ failure.AtNumeral text.toList := by
  rw [read] at h
  dsimp only at h
  split at h
  · cases h
    exact .inl rfl
  · have hstart : (Cursor.skipSpace ⟨0, text.toList⟩).In text.toList :=
      Cursor.In.skipSpace (c := ⟨0, text.toList⟩) rfl
    have hvalue := (follows_values (2 * text.toList.length + 2)).1 _ hstart
    split at h
    · rename_i hread
      cases h
      exact hvalue.numeral _ hread
    · split at h
      · cases h
      · cases h
        exact .inl rfl

/-- The converse for a text of digits: too many of them are refused. -/
theorem read_digits {d : Char} {ds : List Char} (hdigits : ∀ c ∈ d :: ds, c.isDigit = true)
    (hzero : d ≠ '0') (hlong : Number.digitLimit < (d :: ds).length) :
    read (String.ofList (d :: ds)) = .error ⟨.tooManyDigits (d :: ds).length, 0⟩ := by
  have hne (c : Char) (hc : c.isDigit = false) : d ≠ c := by
    rintro rfl
    rw [hdigits _ (List.mem_cons_self ..)] at hc
    cases hc
  have hspace : isSpace d = false := by
    simp [isSpace, hne ' ' rfl, hne '\t' rfl, hne '\n' rfl, hne '\r' rfl]
  have hskip : Cursor.skipSpace ⟨0, d :: ds⟩ = ⟨0, d :: ds⟩ := by
    simp [Cursor.skipSpace, Cursor.skip, hspace]
  have hword : wordAt? (d :: ds) = none := by
    simp [wordAt?, words, List.isPrefixOf, (hne 'n' rfl).symm, (hne 't' rfl).symm,
      (hne 'f' rfl).symm, (hne 'N' rfl).symm, (hne 'I' rfl).symm, (hne '-' rfl).symm]
  have hsign : splitSign (d :: ds) = (false, d :: ds) := by
    simp [splitSign, hne '-' rfl]
  have hwhole : wholePart (d :: ds) = d :: ds := by
    rw [wholePart]
    · exact List.takeWhile_eq_self_iff.2 hdigits
    · rintro _ ⟨⟩
      exact hzero rfl
  have hnumber : readNumber ⟨0, d :: ds⟩ = .error ⟨.tooManyDigits (d :: ds).length, 0⟩ := by
    simp only [readNumber, hsign, hwhole]
    simp [fractionLength, exponentLength, List.length_cons ▸ hlong, refuse]
  have hvalue (fuel : Nat) : readValue (fuel + 1) ⟨0, d :: ds⟩ =
      .error ⟨.tooManyDigits (d :: ds).length, 0⟩ := by
    simp [readValue, hne '"' rfl, hne '[' rfl, hne '\x7b' rfl, hword, hnumber]
  simp [read, hne '\uFEFF' rfl, hskip, hvalue]

end UssdFlows.Json
