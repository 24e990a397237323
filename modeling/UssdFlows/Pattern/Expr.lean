/-!
# Pattern expressions

The shape of an input pattern after it was read: literals, character sets,
positions, groups, repetitions and looks around.  Options such as ignoring
case are settled while a pattern is read, so every leaf carries what it needs
to be tested on its own.  Characters are held as code points, because a
pattern may name code points that no text contains.
-/

namespace UssdFlows.Pattern

/-- How a leaf compares characters. -/
structure Fold where
  /-- Case does not count. -/
  ignoreCase : Bool
  /-- Only ASCII characters have a class or a case. -/
  ascii : Bool
  deriving DecidableEq, Repr

/-- A class of characters that has a letter of its own. -/
inductive Category where
  | digit
  | blank
  | word
  deriving DecidableEq, Repr

/-- One part of a character set. -/
inductive SetItem where
  | code (n : Nat)
  | range (first last : Nat)
  | category (c : Category) (negated : Bool)
  deriving DecidableEq, Repr

/-- A place in the text, tested without consuming anything. -/
inductive Position where
  /-- The start of the text. -/
  | textStart
  /-- The start of the text or of a line. -/
  | lineStart
  /-- The end of the text. -/
  | textEnd
  /-- The end of the text, or before a newline that ends it. -/
  | lastLineEnd
  /-- The end of the text or of a line. -/
  | lineEnd
  /-- Between a word character and another one. -/
  | wordBoundary (negated ascii : Bool)
  deriving DecidableEq, Repr

/-- In which order a repetition tries its counts. -/
inductive Greed where
  /-- As many as possible first. -/
  | greedy
  /-- As few as possible first. -/
  | lazy
  /-- As many as possible, and nothing is given back. -/
  | possessive
  deriving DecidableEq, Repr

/-- A pattern expression. -/
inductive Expr where
  | empty
  | literal (code : Nat) (fold : Fold)
  /-- Any character; a newline only if `newline`. -/
  | any (newline : Bool)
  | set (negated : Bool) (items : List SetItem) (fold : Fold)
  | position (p : Position)
  | seq (first second : Expr)
  | either (first second : Expr)
  | group (index : Nat) (body : Expr)
  | backreference (index : Nat) (fold : Fold)
  | many (greed : Greed) (least : Nat) (most : Option Nat) (body : Expr)
  /-- Looks ahead, or back over a fixed width, without consuming anything. -/
  | look (behind : Option Nat) (negated : Bool) (body : Expr)
  /-- Takes the first way in which the body matches and no other. -/
  | atomic (body : Expr)
  /-- Chooses by whether a group has matched. -/
  | ifGroup (index : Nat) (yes no : Expr)
  deriving DecidableEq, Repr

namespace Expr

/-- The least and the greatest width of the texts that an expression matches;
no greatest width if there is none.  `groupWidth` gives the widths of the
groups that back references name. -/
def width (groupWidth : Nat → Nat × Option Nat) : Expr → Nat × Option Nat
  | empty => (0, some 0)
  | literal .. => (1, some 1)
  | any _ => (1, some 1)
  | set .. => (1, some 1)
  | position _ => (0, some 0)
  | seq a b =>
    let (l, h) := width groupWidth a
    let (m, k) := width groupWidth b
    (l + m, h.bind fun h => k.map (h + ·))
  | either a b =>
    let (l, h) := width groupWidth a
    let (m, k) := width groupWidth b
    (min l m, h.bind fun h => k.map (max h ·))
  | group _ e => width groupWidth e
  | backreference i _ => groupWidth i
  | many _ least most e =>
    let (l, h) := width groupWidth e
    (l * least, match h with
      | none => if most = some 0 then some 0 else none
      | some 0 => some 0
      | some n => most.map (n * ·))
  | look .. => (0, some 0)
  | atomic e => width groupWidth e
  | ifGroup _ a b =>
    let (l, h) := width groupWidth a
    let (m, k) := width groupWidth b
    (min l m, h.bind fun h => k.map (max h ·))

/-- The expressions of a list, one after the other. -/
def ofList (es : List Expr) : Expr := es.foldr seq empty

end Expr

end UssdFlows.Pattern
