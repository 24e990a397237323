import Mathlib.Data.List.Basic
import UssdFlows.Flow.Condition
import UssdFlows.Screen

/-!
# Placeholders are found in the text and nowhere else

What a filled text is can be said without the pieces it is split into: read from the
left, each name in braces becomes the value of its variable, or stays if the variable is
not set, and every other character is copied (`Fills`).  This relation never looks at a
value that it has inserted, and `fill` computes it (`fills_iff`).  So a screen depends on
the variables that the texts of its node mention, and a value typed by a caller cannot
bring another variable onto the screen, whatever braces are in it
(`placeholders_not_injected`).
-/

namespace UssdFlows

namespace Screen

variable {name rest text out : List Char} {c : Char} {v : Dict String}

/-! ## Names in braces -/

/-- The name of a placeholder: one word character or more. -/
def IsName (name : List Char) : Prop := name ≠ [] ∧ ∀ c ∈ name, Text.isWord c = true

/-- A name in braces. -/
def braced (name : List Char) : List Char := '\x7b' :: name ++ ['\x7d']

/-- The first character does not begin a name in braces. -/
def StandsAlone (c : Char) (rest : List Char) : Prop :=
  ∀ name after, IsName name → c :: rest ≠ braced name ++ after

/-- A text mentions the names that stand between braces anywhere in it. -/
def Mentions (text : String) (name : String) : Prop :=
  IsName name.toList ∧ ∃ before after, text.toList = before ++ braced name.toList ++ after

/-- A node mentions the names that its text and the texts of its options mention. -/
def NodeMentions (n : Node) (name : String) : Prop :=
  Mentions n.text name ∨ ∃ o ∈ n.options, Mentions o.text name

/-- The text on the right is the one on the left with its placeholders filled, reading
from the left: a name in braces is replaced by the value of its variable, and stays if
the variable is not set; what does not begin one is copied. -/
inductive Fills (v : Dict String) : List Char → List Char → Prop where
  | done : Fills v [] []
  | value {name rest out : List Char} {entry : String × String} (isName : IsName name)
      (found : v.find? (String.ofList name) = some entry) (more : Fills v rest out) :
      Fills v (braced name ++ rest) (entry.2.toList ++ out)
  | unset {name rest out : List Char} (isName : IsName name)
      (missing : v.find? (String.ofList name) = none) (more : Fills v rest out) :
      Fills v (braced name ++ rest) (braced name ++ out)
  | copied {c : Char} {rest out : List Char} (alone : StandsAlone c rest)
      (more : Fills v rest out) : Fills v (c :: rest) (c :: out)

/-! ## Pieces of a text -/

theorem unclosed_concat (opened : List Char) (c : Char) :
    unclosed (opened ++ [c]) = unclosed opened ++ [.letter c] := by
  simp [unclosed]

/-- While a brace is open, word characters are added to the name. -/
theorem piecesFrom_word {opened : List Char} (hname : ∀ c ∈ name, Text.isWord c = true)
    (rest : List Char) :
    piecesFrom (some opened) (name ++ rest) = piecesFrom (some (opened ++ name)) rest := by
  induction name generalizing opened with
  | nil => simp
  | cons c more ih =>
      rw [List.cons_append, piecesFrom, if_pos (hname c List.mem_cons_self),
        ih fun d hd => hname d (List.mem_cons_of_mem c hd), List.append_cons opened c more]

/-- A name in braces is one piece, whatever follows. -/
theorem piecesFrom_braced (hname : IsName name) (rest : List Char) :
    piecesFrom none (braced name ++ rest) =
      .placeholder (String.ofList name) :: piecesFrom none rest := by
  have hclose : Text.isWord '\x7d' = false := by decide +kernel
  rw [braced, List.append_assoc, List.cons_append, piecesFrom, if_pos rfl,
    piecesFrom_word hname.2, List.nil_append, List.singleton_append, piecesFrom, hclose]
  simp [hname.1]

/-- An open brace stands for itself, with what was read since, unless a closing one ends
a name. -/
theorem piecesFrom_some {opened : List Char} (hopened : ∀ c ∈ opened, Text.isWord c = true)
    (h : ∀ name after, IsName (opened ++ name) → text ≠ name ++ '\x7d' :: after) :
    piecesFrom (some opened) text = unclosed opened ++ piecesFrom none text := by
  induction text generalizing opened with
  | nil => simp [piecesFrom]
  | cons c rest ih =>
      conv_lhs => rw [piecesFrom]
      by_cases hword : Text.isWord c = true
      · have hne : c ≠ '\x7b' := by
          rintro rfl
          exact absurd hword (by decide +kernel)
        have hmore : ∀ d ∈ opened ++ [c], Text.isWord d = true := by
          intro d hd
          rcases List.mem_append.1 hd with hd | hd
          · exact hopened d hd
          · rwa [List.mem_singleton.1 hd]
        have hnext : ∀ name after, IsName (opened ++ [c] ++ name) →
            rest ≠ name ++ '\x7d' :: after := by
          intro name after hname heq
          rw [List.append_assoc, List.singleton_append] at hname
          exact h (c :: name) after hname (by rw [heq, List.cons_append])
        rw [if_pos hword, ih hmore hnext, unclosed_concat, piecesFrom, if_neg hne,
          List.append_assoc, List.singleton_append]
      · have hclose : ¬ (c = '\x7d' ∧ opened ≠ []) := by
          rintro ⟨rfl, hne⟩
          exact h [] rest (by rw [List.append_nil]; exact ⟨hne, hopened⟩) rfl
        rw [if_neg hword, if_neg hclose]
        by_cases hopen : c = '\x7b' <;> simp [hopen, piecesFrom]

/-- A character that does not begin a name in braces stands for itself. -/
theorem piecesFrom_alone (h : StandsAlone c rest) :
    piecesFrom none (c :: rest) = .letter c :: piecesFrom none rest := by
  rw [piecesFrom]
  split
  · rename_i hopen
    subst hopen
    refine piecesFrom_some (by simp) fun name after hname heq => h name after hname ?_
    rw [heq, braced, List.append_assoc, List.singleton_append, List.cons_append]
  · rfl

/-- Every text is read from the left in one way: a name in braces at a time where there
is one, and a character at a time elsewhere. -/
@[elab_as_elim]
theorem scan_induction {motive : List Char → Prop} (done : motive [])
    (name : ∀ name rest, IsName name → motive rest → motive (braced name ++ rest))
    (alone : ∀ c rest, StandsAlone c rest → motive rest → motive (c :: rest)) :
    ∀ text, motive text := by
  intro text
  induction hlength : text.length using Nat.strongRecOn generalizing text with
  | ind length ih =>
      subst hlength
      cases text with
      | nil => exact done
      | cons c rest =>
          by_cases h : StandsAlone c rest
          · exact alone c rest h (ih rest.length (by simp) rest rfl)
          · simp only [StandsAlone, not_forall, not_not] at h
            obtain ⟨found, after, hname, heq⟩ := h
            have hshorter : after.length < (c :: rest).length := by
              rw [heq, braced]
              simp only [List.length_append, List.length_cons]
              omega
            rw [heq]
            exact name found after hname (ih after.length hshorter after rfl)

/-! ## Filling -/

/-- **Filling.**  A text is filled by replacing what stands in it, from the left. -/
theorem fills_iff : Fills v text out ↔ (piecesFrom none text).flatMap (Piece.write v) = out := by
  constructor
  · intro h
    induction h with
    | done => rfl
    | value isName found _ ih =>
        rw [piecesFrom_braced isName, List.flatMap_cons, ih, Piece.write, found]
    | unset isName missing _ ih =>
        rw [piecesFrom_braced isName, List.flatMap_cons, ih, Piece.write, missing, Piece.spelling,
          String.toList_ofList, braced]
    | copied alone _ ih =>
        rw [piecesFrom_alone alone, List.flatMap_cons, ih, Piece.write, List.singleton_append]
  · rintro rfl
    induction text using scan_induction with
    | done => exact .done
    | name name rest hname ih =>
        rw [piecesFrom_braced hname, List.flatMap_cons, Piece.write]
        cases hv : v.find? (String.ofList name) with
        | some entry => exact .value hname hv ih
        | none =>
            rw [Piece.spelling, String.toList_ofList]
            exact .unset hname hv ih
    | alone c rest h ih =>
        rw [piecesFrom_alone h]
        exact .copied h ih

/-- What stands in a placeholder is a name. -/
theorem isName_of_mem_piecesFrom {name : String} {cs : List Char}
    (h : .placeholder name ∈ piecesFrom none cs) : IsName name.toList := by
  induction cs using scan_induction with
  | done => simp [piecesFrom] at h
  | name found rest hfound ih =>
      rw [piecesFrom_braced hfound, List.mem_cons, Piece.placeholder.injEq] at h
      rcases h with rfl | hmem
      · rwa [String.toList_ofList]
      · exact ih hmem
  | alone c rest halone ih =>
      rw [piecesFrom_alone halone, List.mem_cons] at h
      rcases h with hletter | hmem
      · exact absurd hletter (by simp)
      · exact ih hmem

/-- Only names that a text mentions become pieces of it. -/
theorem mentions_of_mem_pieces {text name : String} (h : .placeholder name ∈ pieces text) :
    Mentions text name := by
  obtain ⟨before, after, hsplit⟩ := List.append_of_mem h
  refine ⟨isName_of_mem_piecesFrom h, before.flatMap Piece.spelling, after.flatMap Piece.spelling, ?_⟩
  have hspelled := piecesFrom_spelling none text.toList
  rw [← pieces, hsplit] at hspelled
  simpa [Piece.spelling, braced] using hspelled.symm

theorem render_congr {n : Node} {u v : Dict String} {error : Option String}
    (h : ∀ name, NodeMentions n name → u.find? name = v.find? name) :
    render (some n) u error = render (some n) v error := by
  have htext : fill n.text u = fill n.text v :=
    fill_congr fun name hm => h name (.inl (mentions_of_mem_pieces hm))
  have hlines : n.options.map (optionLine u) = n.options.map (optionLine v) := by
    refine List.map_congr_left fun o ho => ?_
    rw [optionLine, optionLine,
      fill_congr fun name hm => h name (.inr ⟨o, ho, mentions_of_mem_pieces hm⟩)]
  rw [render, render, Option.map_some, Option.map_some, nodeLines, nodeLines, htext, hlines]

/-- **No injection.**  A text is filled exactly by replacing, from the left, each name in
braces that stands in the text itself, by the value of its variable where it has one.
So two sets of variables that agree on the names mentioned in the texts of a node give
the same screen. -/
theorem placeholders_not_injected :
    (∀ (v : Dict String) (text : String) (out : List Char),
      Fills v text.toList out ↔ (fill text v).toList = out) ∧
    ∀ (n : Node) (u v : Dict String) (error : Option String),
      (∀ name, NodeMentions n name → u.find? name = v.find? name) →
        render (some n) u error = render (some n) v error := by
  refine ⟨fun v text out => ?_, fun n u v error h => render_congr h⟩
  rw [fills_iff, fill, String.toList_ofList, pieces]

/-- A greeting with the name that a caller has typed. -/
def greeting : Node := ⟨"greeting", "Hello \x7bname\x7d.", .terminal⟩

/-- The variables of a caller who has typed a name in braces. -/
def typed (rest : List (String × String)) : Dict String :=
  .ofList (("name", "\x7bbalance\x7d") :: rest)

/-- A caller who types the name of a variable in braces is greeted by just that, whether
the variable is set or not. -/
theorem placeholders_not_injected_greeting :
    render (some greeting) (typed [("balance", "10")]) none =
        render (some greeting) (typed []) none ∧
      render (some greeting) (typed []) none = "Hello \x7bbalance\x7d." := by
  refine ⟨placeholders_not_injected.2 greeting _ _ none fun name h => ?_, by decide +kernel⟩
  have hname : name ≠ "balance" := by
    rintro rfl
    obtain ⟨-, before, after, heq⟩ | ⟨o, ho, -⟩ := h
    · exact absurd (occursIn_iff.2 ⟨before, after, heq⟩) (by decide +kernel)
    · exact absurd ho (by simp [Node.options, greeting])
  have hput : typed [("balance", "10")] = (typed []).put ("balance", "10") := rfl
  rw [hput, KeyedList.find?_put, if_neg (Ne.symm hname)]

end Screen

end UssdFlows
