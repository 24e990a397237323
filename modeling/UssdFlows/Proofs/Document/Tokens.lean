import UssdFlows.Document.Yaml.Reader

/-!
# What can be wrong when block notation is cut into tokens

Faults of the notation itself make up the grammar (`Yaml.Fault.isGrammar`).  A text can be refused for two other causes while it is cut: an
escape for a character that there is not, and a version number with too many digits
(`Yaml.Fault.IsCutting`).  What a program fails with is what one of its parts fails with
(`Yaml.Meets.bind`, `Yaml.StepMeets.bind`), so there is one short lemma for each part
of the lexer.
-/

namespace UssdFlows.Yaml

/-- The faults of the notation. -/
def Fault.IsGrammar (fault : Fault) : Prop := fault.isGrammar = true

/-- The faults of a text that is cut into tokens: those of the notation, escapes for
characters that do not exist, and version numbers with too many digits. -/
def Fault.IsCutting : Fault → Prop
  | .noCharacter code => 0x110000 ≤ code
  | .tooManyDigits count => Number.digitLimit < count
  | fault => fault.IsGrammar

/-! ## Faults of readings -/

section Logic

variable {α β σ : Type} {P : Fault → Prop}

/-- A reading fails only with faults that satisfy `P`. -/
def Meets (P : Fault → Prop) (x : Except Fault α) : Prop := ∀ fault, x = .error fault → P fault

theorem meets_ok {a : α} : Meets P (.ok a) := nofun

theorem meets_error {fault : Fault} (h : P fault) : Meets P (.error fault : Except Fault α) := by
  rintro _ ⟨⟩
  exact h

theorem Meets.bind {x : Except Fault α} {f : α → Except Fault β} (hx : Meets P x)
    (hf : ∀ a, Meets P (f a)) : Meets P (x >>= f) := by
  cases x with
  | ok a => exact hf a
  | error fault => exact meets_error (hx fault rfl)

theorem Meets.map {x : Except Fault α} {f : α → β} (hx : Meets P x) : Meets P (f <$> x) := by
  cases x with
  | ok a => exact meets_ok
  | error fault => exact meets_error (hx fault rfl)

theorem Meets.ite {c : Prop} [Decidable c] {x y : Except Fault α} (hx : Meets P x)
    (hy : Meets P y) : Meets P (if c then x else y) := by
  split
  · exact hx
  · exact hy

/-- A step fails only with faults that satisfy `P`, wherever it is taken. -/
def StepMeets (P : Fault → Prop) (x : StateT σ (Except Fault) α) : Prop := ∀ s, Meets P (x s)

namespace StepMeets

theorem pure (a : α) : StepMeets P (pure a : StateT σ (Except Fault) α) := fun _ => meets_ok

theorem get : StepMeets P (get : StateT σ (Except Fault) σ) := fun _ => meets_ok

theorem set (s : σ) : StepMeets P (set s : StateT σ (Except Fault) PUnit) := fun _ => meets_ok

theorem modify (f : σ → σ) : StepMeets P (modify f : StateT σ (Except Fault) PUnit) :=
  fun _ => meets_ok

theorem throw {fault : Fault} (h : P fault) :
    StepMeets P (throw fault : StateT σ (Except Fault) α) := fun _ => meets_error h

theorem lift {x : Except Fault α} (h : Meets P x) :
    StepMeets P (liftM x : StateT σ (Except Fault) α) := fun _ => h.bind fun _ => meets_ok

variable {x : StateT σ (Except Fault) α}

theorem bind {f : α → StateT σ (Except Fault) β} (hx : StepMeets P x)
    (hf : ∀ a, StepMeets P (f a)) : StepMeets P (x >>= f) :=
  fun s => (hx s).bind fun r => hf r.1 r.2

theorem map {f : α → β} (hx : StepMeets P x) : StepMeets P (f <$> x) :=
  fun s => (hx s).bind fun _ => meets_ok

theorem ite {c : Prop} [Decidable c] {y : StateT σ (Except Fault) α} (hx : StepMeets P x)
    (hy : StepMeets P y) : StepMeets P (if c then x else y) := by
  split
  · exact hx
  · exact hy

end StepMeets

end Logic

/-! ## Scalars -/

variable {α : Type} {c : Cursor}

theorem meets_expected {what : String} :
    Meets Fault.IsCutting (.error (.expected what) : Except Fault α) := meets_error rfl

theorem meets_endLine (c : Cursor) : Meets Fault.IsCutting c.endLine :=
  .ite meets_ok meets_expected

theorem meets_charOfCode (code : Nat) : Meets Fault.IsCutting (charOfCode code) := by
  rw [charOfCode]
  split
  · exact meets_ok
  · rename_i h
    exact meets_error (Nat.le_of_not_lt h)

theorem meets_quotedBreaks (fuel : Nat) (c : Cursor) :
    Meets Fault.IsCutting (quotedBreaks fuel c) := by
  induction fuel generalizing c with
  | zero => exact meets_ok
  | succ fuel ih =>
      exact .ite meets_expected (.ite meets_ok ((ih _).bind fun _ => meets_ok))

theorem meets_quotedGap (c : Cursor) : Meets Fault.IsCutting (quotedGap c) :=
  .ite meets_expected (.ite meets_ok ((meets_quotedBreaks _ _).bind fun _ => meets_ok))

theorem meets_escapedChars (c : Cursor) : Meets Fault.IsCutting (escapedChars c) := by
  rw [escapedChars]
  split
  · exact meets_expected
  · split
    · exact meets_ok
    · dsimp only
      split
      · exact .ite ((meets_charOfCode _).bind fun _ => meets_ok) meets_expected
      · exact meets_expected
    · exact .ite (meets_quotedBreaks _ _) meets_expected

theorem meets_quotedRun (double : Bool) (fuel : Nat) (c : Cursor) :
    Meets Fault.IsCutting (quotedRun double fuel c) := by
  induction fuel generalizing c with
  | zero => exact meets_ok
  | succ fuel ih =>
      rw [quotedRun]
      dsimp only
      split
      · exact meets_ok
      · refine .ite meets_ok (.ite (.ite meets_ok (.ite ?_ ?_)) (.ite (.ite ?_ meets_ok) ?_))
        · exact (meets_escapedChars _).bind fun _ => (ih _).bind fun _ => meets_ok
        all_goals exact (ih _).bind fun _ => meets_ok

theorem meets_quotedInside (double : Bool) (fuel : Nat) (c : Cursor) :
    Meets Fault.IsCutting (quotedInside double fuel c) := by
  induction fuel generalizing c with
  | zero => exact meets_expected
  | succ fuel ih =>
      refine (meets_quotedRun double _ c).bind fun _ => .ite meets_ok ?_
      exact (meets_quotedGap _).bind fun _ => (ih _).bind fun _ => meets_ok

theorem meets_quotedScalar (double : Bool) (c : Cursor) :
    Meets Fault.IsCutting (quotedScalar double c) :=
  (meets_quotedInside double _ _).bind fun _ => meets_ok

theorem meets_increment? (c : Cursor) : Meets Fault.IsCutting (increment? c) := by
  rw [increment?]
  split
  · exact .ite meets_expected meets_ok
  · exact meets_ok

theorem meets_blockHead (c : Cursor) : Meets Fault.IsCutting (blockHead c) := by
  rw [blockHead]
  split
  · exact (meets_increment? _).bind fun _ => meets_ok.bind fun _ => .ite meets_ok meets_expected
  · refine (meets_increment? _).bind fun increment => ?_
    dsimp only
    split
    · split
      all_goals exact meets_ok.bind fun _ => .ite meets_ok meets_expected
    · exact meets_ok.bind fun _ => .ite meets_ok meets_expected

theorem meets_blockScalar (folded : Bool) (parent : Int) (c : Cursor) :
    Meets Fault.IsCutting (blockScalar folded parent c) :=
  (meets_blockHead _).bind fun _ => (meets_endLine _).bind fun _ => meets_ok

/-! ## Steps -/

namespace Lexing

/-- A step that fails only with faults that a text can have while it is cut. -/
abbrev Cuts (x : Lexing α) : Prop := StepMeets Fault.IsCutting x

theorem cuts_refuse (what : String) : Cuts (refuse what : Lexing α) := .throw rfl

theorem cuts_forget (p : PossibleKey → Bool) : Cuts (forget p) :=
  .bind .get fun _ => .ite (cuts_refuse _) (.set _)

theorem cuts_forgetStale : Cuts forgetStale := .bind .get fun _ => cuts_forget _

theorem cuts_forgetHere : Cuts forgetHere := .bind .get fun _ => cuts_forget _

theorem cuts_remember : Cuts remember :=
  .bind .get fun _ => .ite (.bind cuts_forgetHere fun _ => .modify _) (.pure _)

theorem cuts_closeBlocks (column : Int) : Cuts (closeBlocks column) :=
  .bind .get fun _ => .ite (.set _) (.pure _)

theorem meets_addressOctets (fuel : Nat) (c : Cursor) :
    Meets Fault.IsCutting (addressOctets fuel c) := by
  induction fuel generalizing c with
  | zero => exact meets_ok
  | succ fuel ih =>
      rw [addressOctets]
      split
      · split
        · exact (ih _).bind fun _ => meets_ok
        · exact meets_expected
      · exact meets_expected
      · exact meets_ok

theorem meets_addressFrom (fuel : Nat) (c : Cursor) :
    Meets Fault.IsCutting (addressFrom fuel c) := by
  induction fuel generalizing c with
  | zero => exact meets_ok
  | succ fuel ih =>
      rw [addressFrom]
      split
      · exact meets_ok
      · refine .ite ((meets_addressOctets _ _).bind fun r => ?_)
          (.ite ((ih _).bind fun _ => meets_ok) meets_ok)
        dsimp only
        split
        · exact (ih _).bind fun _ => meets_ok
        · exact meets_expected

theorem cuts_address : Cuts address :=
  .bind .get fun _ => .bind (.lift (meets_addressFrom _ _)) fun _ =>
    .ite (cuts_refuse _) (.bind (.modify _) fun _ => .pure _)

theorem cuts_handle : Cuts handle := by
  refine .bind .get fun l => ?_
  dsimp only
  split
  · exact .ite (.bind (.modify _) fun _ => .pure _)
      (.ite (.bind (.modify _) fun _ => .pure _) (cuts_refuse _))
  · exact cuts_refuse _

theorem cuts_tagToken : Cuts tagToken := by
  refine .bind .get fun l => ?_
  dsimp only
  have hend (t : Token) : Cuts (do
      if atSpace (← get).cursor.rest then return t else refuse "a space after a tag") :=
    .bind .get fun _ => .ite (.pure _) (cuts_refuse _)
  have haddress (h : Option String) : Cuts (do
      let result ← pure (Token.tag h (← address))
      if atSpace (← get).cursor.rest then return result else refuse "a space after a tag") :=
    .bind cuts_address fun _ => .bind (.pure _) hend
  split
  · refine .bind (.modify _) fun _ => .bind cuts_address fun _ => .bind .get fun _ => ?_
    exact .ite (.bind (.modify _) fun _ => .bind (.pure _) hend) (.bind (cuts_refuse _) hend)
  · refine .ite (.bind (.modify _) fun _ => .bind (.pure _) hend) (.ite ?_ ?_)
    · exact .bind cuts_handle fun _ => haddress _
    · exact .bind (.modify _) fun _ => haddress _

theorem cuts_anchorName : Cuts anchorName :=
  .bind .get fun _ => .ite (cuts_refuse _) (.bind (.modify _) fun _ => .pure _)

theorem cuts_number : Cuts number := by
  refine .bind .get fun l => .ite (.bind (cuts_refuse _) fun _ => ?_) ?_
  all_goals
    dsimp only
    split
    · rename_i h
      exact .bind (.throw h) fun _ => .bind (.modify _) fun _ => .pure _
    · exact .bind (.modify _) fun _ => .pure _

theorem cuts_requireSpace : Cuts requireSpace :=
  .bind .get fun _ => .ite (.pure _) (cuts_refuse _)

theorem cuts_directive : Cuts directive := by
  have hend (d : Directive) : Cuts (do
      goTo (← (← get).cursor.endLine)
      return d) :=
    .bind .get fun _ => .bind (.lift (meets_endLine _)) fun _ => .bind (.modify _) fun _ => .pure _
  refine .bind .get fun l => .ite (.bind (cuts_refuse _) fun _ => ?_) ?_
  all_goals
    refine .bind (.modify _) fun _ => .bind cuts_requireSpace fun _ => ?_
    dsimp only
    split
    · refine .bind (.modify _) fun _ => .bind cuts_number fun _ => .bind .get fun _ => .ite ?_ ?_
      · exact .bind (.modify _) fun _ => .bind cuts_number fun _ =>
          .bind cuts_requireSpace fun _ => .bind (.pure _) hend
      · exact .bind (cuts_refuse _) hend
    · refine .bind (.modify _) fun _ => .bind cuts_handle fun _ => .bind .get fun _ => .ite ?_ ?_
      · exact .bind (.modify _) fun _ => .bind cuts_address fun _ =>
          .bind cuts_requireSpace fun _ => .bind (.pure _) hend
      · exact .bind (cuts_refuse _) hend
    · exact .bind .get fun _ => .bind (.modify _) fun _ => .bind (.pure _) hend

theorem cuts_skipGaps (fuel : Nat) : Cuts (skipGaps fuel) := by
  induction fuel with
  | zero => exact .pure _
  | succ fuel ih => exact .bind .get fun _ => .ite (.modify _) (.bind (.set _) fun _ => ih)

/-! ## Tokens -/

theorem cuts_outermost (t : Token) (width : Nat) : Cuts (outermost t width) :=
  .bind (cuts_closeBlocks _) fun _ => .bind cuts_forgetHere fun _ => .bind (.modify _) fun _ =>
    .bind .get fun _ => .bind (.modify _) fun _ => .modify _

theorem cuts_openFlow (t : Token) : Cuts (openFlow t) := .bind cuts_remember fun _ => .modify _

theorem cuts_closeFlow (t : Token) : Cuts (closeFlow t) :=
  .bind cuts_forgetHere fun _ => .bind .get fun _ =>
    .ite (.bind (cuts_refuse _) fun _ => .modify _) (.modify _)

theorem cuts_comma : Cuts comma :=
  .bind (.modify _) fun _ => .bind cuts_forgetHere fun _ => .bind .get fun _ =>
    .bind (.modify _) fun _ => .modify _

theorem cuts_openHere (t : Token) : Cuts (openHere t) :=
  .bind .get fun _ => .ite (.ite (.modify _) (cuts_refuse _)) (.pure _)

theorem cuts_dash : Cuts dash :=
  .bind (cuts_openHere _) fun _ => .bind (.modify _) fun _ => .bind cuts_forgetHere fun _ =>
    .bind .get fun _ => .bind (.modify _) fun _ => .modify _

theorem cuts_explicitKey : Cuts explicitKey :=
  .bind (cuts_openHere _) fun _ => .bind .get fun _ => .bind (.modify _) fun _ =>
    .bind cuts_forgetHere fun _ => .bind .get fun _ => .bind (.modify _) fun _ => .modify _

theorem cuts_value : Cuts value := by
  have hend : Cuts (do
      goTo (← get).cursor.next
      emit .value) := .bind .get fun _ => .bind (.modify _) fun _ => .modify _
  refine .bind .get fun l => ?_
  dsimp only
  split
  · refine .bind (.set _) fun _ => .ite (.bind (.modify _) fun _ => ?_) ?_
    all_goals exact .bind (.modify _) fun _ => hend
  · exact .bind (cuts_openHere _) fun _ => .bind (.modify _) fun _ =>
      .bind cuts_forgetHere fun _ => hend

theorem cuts_keyLike {read : Lexing Token} (h : Cuts read) : Cuts (keyLike read) :=
  .bind cuts_remember fun _ => .bind (.modify _) fun _ => .bind h fun _ => .modify _

theorem cuts_quoted (double : Bool) : Cuts (quoted double) :=
  .bind .get fun _ => .bind (.lift (meets_quotedScalar double _)) fun _ =>
    .bind (.modify _) fun _ => .pure _

theorem cuts_plain : Cuts plain := .bind .get fun _ => .bind (.set _) fun _ => .pure _

theorem cuts_block (folded : Bool) : Cuts (block folded) :=
  .bind (.modify _) fun _ => .bind cuts_forgetHere fun _ => .bind .get fun _ =>
    .bind (.lift (meets_blockScalar folded _ _)) fun _ => .bind (.modify _) fun _ => .modify _

theorem cuts_step : Cuts step := by
  refine .bind .get fun _ => .bind (cuts_skipGaps _) fun _ => .bind cuts_forgetStale fun _ =>
    .bind .get fun _ => .bind (cuts_closeBlocks _) fun _ => .bind .get fun l => ?_
  dsimp only
  have hmore {x : Lexing Unit} (h : Cuts x) : Cuts (do
      x
      return false) := h.bind fun _ => .pure _
  split
  · exact .bind (cuts_closeBlocks _) fun _ => .bind cuts_forgetHere fun _ =>
      .bind (.modify _) fun _ => .pure _
  · refine .ite (.bind (cuts_closeBlocks _) fun _ => .bind cuts_forgetHere fun _ =>
      .bind (.modify _) fun _ => .bind cuts_directive fun _ => hmore (.modify _)) ?_
    refine .ite (hmore (cuts_outermost _ _)) (.ite (hmore (cuts_outermost _ _)) ?_)
    refine .ite (hmore (cuts_openFlow _)) (.ite (hmore (cuts_openFlow _)) ?_)
    refine .ite (hmore (cuts_closeFlow _)) (.ite (hmore (cuts_closeFlow _)) ?_)
    refine .ite (hmore cuts_comma) (.ite (hmore cuts_dash) ?_)
    refine .ite (hmore cuts_explicitKey) (.ite (hmore cuts_value) ?_)
    refine .ite (hmore (cuts_keyLike (.map cuts_anchorName))) ?_
    refine .ite (hmore (cuts_keyLike (.map cuts_anchorName))) ?_
    refine .ite (hmore (cuts_keyLike cuts_tagToken)) ?_
    refine .ite (hmore (cuts_block _)) (.ite (hmore (cuts_block _)) ?_)
    refine .ite (hmore (cuts_keyLike (cuts_quoted _))) ?_
    refine .ite (hmore (cuts_keyLike (cuts_quoted _))) ?_
    exact .ite (hmore (cuts_keyLike cuts_plain)) (hmore (cuts_refuse _))

theorem cuts_steps (fuel : Nat) : Cuts (steps fuel) := by
  induction fuel with
  | zero => exact cuts_refuse _
  | succ fuel ih => exact .bind cuts_step fun _ => .ite (.pure _) ih

end Lexing

/-- **Tokens.**  A text that cannot be cut into tokens breaks the notation, or it has an
escape for a character that does not exist or a version number with too many digits. -/
theorem meets_tokens (s : String) : Meets Fault.IsCutting (tokens s) := by
  rw [tokens]
  split
  · exact meets_error rfl
  · exact (Lexing.cuts_steps _ _).bind fun _ => meets_ok

end UssdFlows.Yaml
