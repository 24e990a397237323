import UssdFlows.Flow.Basic
import UssdFlows.Text.Word

/-!
# Screens

A screen is the text shown on a handset: an error where there is one, the
prompt of the node, and one line for each option of a menu.  Texts of a flow
may hold placeholders, a name in braces, that are filled from the variables of
a session.

A text is split into pieces once (`pieces`), and every piece is written on its
own (`fill`).  So what is inserted for a placeholder is never read again, and
only the names that occur as pieces can influence a screen
(`fill_congr`).
-/

namespace UssdFlows

namespace Screen

/-- A piece of a text with placeholders. -/
inductive Piece where
  /-- A character that stands for itself. -/
  | letter (c : Char)
  /-- A name in braces: one word character or more. -/
  | placeholder (name : String)
  deriving DecidableEq, Repr

/-- How a piece is spelled. -/
def Piece.spelling : Piece → List Char
  | letter c => [c]
  | placeholder name => '\x7b' :: name.toList ++ ['\x7d']

/-- An opening brace and the characters after it that did not become a
placeholder. -/
def unclosed (name : List Char) : List Piece := (('\x7b' :: name).map Piece.letter)

/-- Splits a text into pieces.  While a brace is open, `opened` holds the word
characters read since. -/
def piecesFrom (opened : Option (List Char)) : List Char → List Piece
  | [] => (opened.map unclosed).getD []
  | c :: rest =>
    match opened with
    | none =>
      if c = '\x7b' then piecesFrom (some []) rest else .letter c :: piecesFrom none rest
    | some name =>
      if Text.isWord c then piecesFrom (some (name ++ [c])) rest
      else if c = '\x7d' ∧ name ≠ [] then
        .placeholder (String.ofList name) :: piecesFrom none rest
      else if c = '\x7b' then unclosed name ++ piecesFrom (some []) rest
      else unclosed name ++ .letter c :: piecesFrom none rest

/-- The pieces of a text. -/
def pieces (text : String) : List Piece := piecesFrom none text.toList

/-- Writes a piece: a placeholder whose variable is set becomes the value, any
other piece stays as it is spelled. -/
def Piece.write (bindings : Dict String) : Piece → List Char
  | letter c => [c]
  | placeholder name =>
    match bindings.find? name with
    | some (_, value) => value.toList
    | none => (placeholder name).spelling

/-- Fills the placeholders of a text from variables. -/
def fill (text : String) (bindings : Dict String) : String :=
  String.ofList ((pieces text).flatMap (Piece.write bindings))

/-- The line of a menu option. -/
def optionLine (bindings : Dict String) (o : MenuOption) : String :=
  o.key ++ ". " ++ fill o.text bindings

/-- The lines that show a node: its text, unless it is empty, and its options. -/
def nodeLines (bindings : Dict String) (n : Node) : List String :=
  (if n.text = "" then [] else [fill n.text bindings]) ++ n.options.map (optionLine bindings)

/-- The lines that show an error: none for an empty one. -/
def errorLines : Option String → List String
  | none => []
  | some message => if message = "" then [] else [message]

/-- The screen of a node with an error above it. -/
def render (node : Option Node) (bindings : Dict String) (error : Option String) : String :=
  "\n".intercalate (errorLines error ++ (node.map (nodeLines bindings)).getD [])

/-! ## Pieces -/

/-- Characters that stand for themselves spell themselves. -/
theorem letters_spelling (cs : List Char) : (cs.map Piece.letter).flatMap Piece.spelling = cs := by
  induction cs with
  | nil => rfl
  | cons c rest ih => simp [Piece.spelling, ih]

theorem unclosed_spelling (name : List Char) :
    (unclosed name).flatMap Piece.spelling = '\x7b' :: name := letters_spelling _

/-- Splitting loses nothing: the pieces spell the text. -/
theorem piecesFrom_spelling (opened : Option (List Char)) (cs : List Char) :
    (piecesFrom opened cs).flatMap Piece.spelling =
      ((opened.map ('\x7b' :: ·)).getD []) ++ cs := by
  induction cs generalizing opened with
  | nil => cases opened <;> simp [piecesFrom, unclosed_spelling]
  | cons c rest ih =>
    cases opened with
    | none =>
      by_cases h : c = '\x7b' <;> simp [piecesFrom, h, ih, Piece.spelling]
    | some name =>
      by_cases hw : Text.isWord c = true
      · simp [piecesFrom, hw, ih]
      · by_cases hc : c = '\x7d' ∧ name ≠ []
        · obtain ⟨rfl, hn⟩ := hc
          simp [piecesFrom, hw, hn, ih, Piece.spelling]
        · by_cases ho : c = '\x7b'
          · subst ho
            simp [piecesFrom, hw, ih, unclosed_spelling]
          · simp [piecesFrom, hw, hc, ho, ih, unclosed_spelling, Piece.spelling]

/-- A placeholder is written alike if its variable is the same. -/
theorem Piece.write_congr {p : Piece} {u v : Dict String}
    (h : ∀ name, p = .placeholder name → u.find? name = v.find? name) : p.write u = p.write v := by
  cases p with
  | letter c => rfl
  | placeholder name => rw [write, write, h name rfl]

/-- A text depends only on the variables that its placeholders name. -/
theorem fill_congr {text : String} {u v : Dict String}
    (h : ∀ name, Piece.placeholder name ∈ pieces text → u.find? name = v.find? name) :
    fill text u = fill text v := by
  have hpieces : (pieces text).map (Piece.write u) = (pieces text).map (Piece.write v) :=
    List.map_congr_left fun p hp => Piece.write_congr fun name hname => h name (hname ▸ hp)
  rw [fill, fill, List.flatMap_def, List.flatMap_def, hpieces]

end Screen

end UssdFlows
