import UssdFlows.Pattern.Reader
import UssdFlows.Text.LetterCase

/-!
# Matching texts against patterns

A pattern matches a text if some way of taking its alternatives and counting
its repetitions consumes the whole text.  The ways are tried in the order that
the pattern gives: first alternatives before second ones, greedy repetitions
with the highest count first.  What follows an expression is passed to it as a
continuation, so that a failure further on makes it try its next way.

A repetition starts a further round beyond its least count only if the round
before it consumed something; this bounds the rounds by the length of the text.
-/

namespace UssdFlows.Pattern

/-! ## Comparing characters -/

/-- The characters that equal a character when case does not count. -/
def caseClass (fold : Fold) (n : Nat) : List Nat :=
  if fold.ascii then
    let c := Char.ofNat n
    if n < 0x80 then [n, c.toLower.toNat, c.toUpper.toNat] else [n]
  else
    let low := Text.lowerChar (Char.ofNat n)
    let kin := low :: Text.sameLetter low
    let capitals := kin.flatMap fun c =>
      let lowOf (m : Nat) : Bool := Text.lowerChar (Char.ofNat m) == c
      let ascii := if c.toNat < 0x80 then [c.toUpper.toNat] else []
      let runs := Text.lowerRuns.filterMap fun r =>
        if r.image ≤ c.toNat && r.first + (c.toNat - r.image) ≤ r.last then
          some (r.first + (c.toNat - r.image))
        else none
      (ascii ++ runs).filter lowOf
    n :: kin.map Char.toNat ++ capitals

/-- Whether a character belongs to a class. -/
def Category.holds (c : Category) (ascii : Bool) (ch : Char) : Bool :=
  if ascii then
    ch.toNat < 0x80 && match c with
      | digit => ch.isDigit
      | blank => ch = ' ' || (9 ≤ ch.toNat && ch.toNat ≤ 13)
      | word => ch.isAlphanum || ch = '_'
  else match c with
    | digit => Text.isDigit ch
    | blank => Text.isBlank ch
    | word => Text.isWord ch

/-- The forms of a character that a leaf compares. -/
def Fold.forms (fold : Fold) (ch : Char) : List Nat :=
  if fold.ignoreCase then caseClass fold ch.toNat else [ch.toNat]

/-- The character whose class counts: its small form if case does not count. -/
def Fold.small (fold : Fold) (ch : Char) : Char :=
  if fold.ignoreCase then
    if fold.ascii then ch.toLower else Text.lowerChar ch
  else ch

/-- Whether an item of a set holds a character. -/
def SetItem.holds (fold : Fold) (ch : Char) : SetItem → Bool
  | code n => (fold.forms ch).contains n
  | range a b => (fold.forms ch).any fun n => a ≤ n && n ≤ b
  | category c negated => c.holds fold.ascii (fold.small ch) != negated

/-! ## Places in a text -/

/-- A place in the text: its index, and the groups that have matched, as pairs
of their start and end. -/
structure Spot where
  index : Nat
  groups : List (Nat × Nat × Nat)

/-- Whether the character at an index is a word character. -/
def wordAt (text : Array Char) (ascii : Bool) (i : Nat) : Bool :=
  match text[i]? with
  | some c => Category.word.holds ascii c
  | none => false

/-- Whether a place satisfies a position. -/
def Position.holds (text : Array Char) (i : Nat) : Position → Bool
  | textStart => i == 0
  | lineStart => i == 0 || text[i - 1]? == some '\n'
  | textEnd => i == text.size
  | lastLineEnd => i == text.size || (i + 1 == text.size && text[i]? == some '\n')
  | lineEnd => i == text.size || text[i]? == some '\n'
  | wordBoundary negated ascii =>
    let before := i != 0 && wordAt text ascii (i - 1)
    !text.isEmpty && (before != wordAt text ascii i) != negated

/-- What is to be matched after an expression. -/
abbrev Rest := Spot → Option Spot

/-- Matches one character that satisfies a test. -/
def oneChar (text : Array Char) (ok : Char → Bool) (rest : Rest) (s : Spot) : Option Spot :=
  match text[s.index]? with
  | some c => if ok c then rest { s with index := s.index + 1 } else none
  | none => none

/-- Matches the text of a group again. -/
def again (text : Array Char) (fold : Fold) (start stop : Nat) (rest : Rest) (s : Spot) :
    Option Spot :=
  let length := stop - start
  let same := (List.range length).all fun k =>
    match text[start + k]?, text[s.index + k]? with
    | some a, some b => fold.small a == fold.small b
    | _, _ => false
  if same then rest { s with index := s.index + length } else none

/-! ## Repetitions -/

/-- Greedy and lazy repetition.  `count` rounds are done; `last` is where the
last round beyond the least count began. -/
def rounds (body : Rest → Rest) (lazy : Bool) (least : Nat) (most : Option Nat) (rest : Rest) :
    (fuel : Nat) → (count : Nat) → (last : Option Nat) → Rest
  | 0, _, _, s => rest s
  | fuel + 1, count, last, s =>
    if count < least then body (rounds body lazy least most rest fuel (count + 1) last) s
    else
      let more := most.all (count < ·) && last != some s.index
      let next := rounds body lazy least most rest fuel (count + 1) (some s.index)
      if lazy then
        match rest s with
        | some t => some t
        | none => if more then body next s else none
      else
        match if more then body next s else none with
        | some t => some t
        | none => rest s

/-- Possessive repetition: every round takes the first way that matches. -/
def possess (body : Rest → Rest) (least : Nat) (most : Option Nat) :
    (fuel : Nat) → (count : Nat) → Spot → Option Spot
  | 0, _, s => some s
  | fuel + 1, count, s =>
    if count < least then (body some s).bind (possess body least most fuel (count + 1))
    else if most.all (count < ·) then
      match body some s with
      | some t => if t.index = s.index then some t else possess body least most fuel (count + 1) t
      | none => some s
    else some s

/-! ## Expressions -/

/-- Matches an expression at a place and then what follows it. -/
def Expr.run (text : Array Char) : Expr → Rest → Rest
  | empty, rest, s => rest s
  | literal n fold, rest, s => oneChar text (fun c => (fold.forms c).contains n) rest s
  | any newline, rest, s => oneChar text (fun c => newline || c != '\n') rest s
  | set negated items fold, rest, s =>
    oneChar text (fun c => items.any (SetItem.holds fold c) != negated) rest s
  | position p, rest, s => if p.holds text s.index then rest s else none
  | seq a b, rest, s => a.run text (b.run text rest) s
  | either a b, rest, s =>
    match a.run text rest s with
    | some t => some t
    | none => b.run text rest s
  | group i e, rest, s =>
    e.run text (fun t => rest { t with groups := (i, s.index, t.index) :: t.groups }) s
  | backreference i fold, rest, s =>
    match s.groups.lookup i with
    | some (start, stop) => again text fold start stop rest s
    | none => none
  | many greed least most e, rest, s =>
    let fuel := least + text.size + 2
    match greed with
    | .possessive => (possess (e.run text) least most fuel 0 s).bind rest
    | .greedy => rounds (e.run text) false least most rest fuel 0 none s
    | .lazy => rounds (e.run text) true least most rest fuel 0 none s
  | look behind negated e, rest, s =>
    let back := behind.getD 0
    let found := if back ≤ s.index then e.run text some { s with index := s.index - back } else none
    if negated then if found.isSome then none else rest s
    else match found with
      | some t => rest { s with groups := t.groups }
      | none => none
  | atomic e, rest, s => (e.run text some s).bind rest
  | ifGroup i yes no, rest, s =>
    if (s.groups.lookup i).isSome then yes.run text rest s else no.run text rest s

/-- Whether an expression matches the whole of a text. -/
def Expr.matchesWhole (e : Expr) (source : String) : Bool :=
  let text := source.toList.toArray
  (e.run text (fun s => if s.index = text.size then some s else none) ⟨0, []⟩).isSome

/-- The empty expression matches the empty text only. -/
theorem matchesWhole_empty (s : String) : Expr.empty.matchesWhole s = s.toList.isEmpty := by
  cases h : s.toList <;> simp [Expr.matchesWhole, Expr.run, h]

end UssdFlows.Pattern

namespace UssdFlows

/-- A pattern: a text, not empty, that can be read as a pattern expression. -/
def Pattern : Type := { s : String // s ≠ "" ∧ (Pattern.parse s).toBool = true }

namespace Pattern

/-- The text of a pattern. -/
def source (p : Pattern) : String := p.val

/-- The expression that a pattern denotes. -/
def expr (p : Pattern) : Expr :=
  match h : parse p.val with
  | .ok e => e
  | .error _ => absurd p.property.2 (by simp [h, Except.toBool])

/-- Whether the whole of a text matches a pattern. -/
def accepts (p : Pattern) (s : String) : Bool := p.expr.matchesWhole s

instance : DecidableEq Pattern := inferInstanceAs (DecidableEq (Subtype _))

instance : Repr Pattern := ⟨fun p n => reprPrec p.source n⟩

/-- Reads a text as a pattern. -/
def ofText (s : String) : Except Fault Pattern :=
  match h : parse s with
  | .ok _ => if e : s = "" then .error .emptyPattern else .ok ⟨s, e, by simp [h, Except.toBool]⟩
  | .error e => .error e

/-- A pattern is read back from its own text. -/
theorem ofText_source (p : Pattern) : ofText p.source = .ok p := by
  obtain ⟨s, hs, h⟩ := p
  unfold ofText source
  split
  · simp only [dif_neg hs]
  · rename_i e he
    simp [he, Except.toBool] at h

/-- Reading keeps the text. -/
theorem source_of_ofText {s : String} {p : Pattern} (h : ofText s = .ok p) : p.source = s := by
  unfold ofText at h
  split at h
  · split at h
    · cases h
    · cases h; rfl
  · cases h

end Pattern

end UssdFlows
