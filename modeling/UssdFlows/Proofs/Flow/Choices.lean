import Mathlib.Data.List.Nodup
import Mathlib.Data.List.TakeWhile
import UssdFlows.Flow.Loading
import UssdFlows.Proofs.Document.Readings
import UssdFlows.Proofs.Flow.Verdict
import UssdFlows.Proofs.Interpretation

/-!
# Every option can be chosen

The key of an option passes three places: it is read from a document, where it may be
any value, it is compared with the other keys of its menu when the flow is examined,
and it is looked up when a caller types.  All three take a key without the blanks
around it.  So if the examination finds no key twice, each option of each menu is
chosen by its own key, by the text that the value in the document is shown as, and by
both with blanks around them, and nothing else chooses anything
(`Flow.options_chosen`).
-/

namespace UssdFlows

/-! ## Blanks -/

namespace Text

/-- Blanks around a text make no difference to what is left when it is stripped. -/
theorem stripBy_pad {drop : Char → Bool} {p q : List Char} (hp : ∀ c ∈ p, drop c = true)
    (hq : ∀ c ∈ q, drop c = true) (cs : List Char) :
    stripBy drop (p ++ cs ++ q) = stripBy drop cs := by
  have hq' : ∀ c ∈ q.reverse, drop c = true := fun c hc => hq c (List.mem_reverse.1 hc)
  rw [stripBy, List.append_assoc, List.dropWhile_append_of_pos hp, List.dropWhile_append]
  split
  · rename_i hnil
    rw [stripBy, List.isEmpty_iff.1 hnil, List.dropWhile_eq_nil_iff.2 hq]
  · rw [List.reverse_append, List.dropWhile_append_of_pos hq', stripBy]

theorem strip_pad {p q : String} (hp : isBlankText p = true) (hq : isBlankText q = true)
    (s : String) : strip (p ++ s ++ q) = strip s := by
  rw [isBlankText, List.all_eq_true] at hp hq
  rw [strip, String.toList_append, String.toList_append, stripBy_pad hp hq, strip]

end Text

/-! ## Keys in documents -/

theorem MenuOption.readKey_null [Libraries] (k : { s : String // Text.isTrimmed s = true }) :
    readKey .null ≠ .ok k := by
  rw [readKey]
  simp [Checked.fail]

theorem MenuOption.readKey_of_ne_null [Libraries] {v : Value} (h : v ≠ .null) :
    readKey v = v.readShown.andThen fun shown =>
      if h : Text.isTrimmed (Text.strip shown) = true then .ok ⟨Text.strip shown, h⟩
      else .fail (.refused "Option key cannot be empty") := by
  cases v <;> first | rfl | exact absurd rfl h

theorem Value.readShown_eq_ok_iff [Libraries] {v : Value} {s : String} :
    v.readShown = .ok s ↔ Libraries.shown v = .ok s := by
  rw [readShown]
  split <;> simp [Checked.fail, *]

theorem Value.eq_of_asText {v : Value} {s : String} (h : v.asText = .ok s) :
    v.isShowable = true ∧ v.display = s := by
  unfold asText at h
  split at h
  · cases h
  · split at h
    · cases h
      exact ⟨by assumption, rfl⟩
    · cases h

/-- A key is read as the text that a value other than null is shown as, stripped. -/
theorem MenuOption.readKey_eq_ok {v : Value} {k : { s : String // Text.isTrimmed s = true }}
    (h : readKey v = .ok k) : v ≠ .null ∧ v.isShowable = true ∧ k.val = Text.strip v.display := by
  have hnull : v ≠ .null := by
    rintro rfl
    exact readKey_null k h
  rw [readKey_of_ne_null hnull] at h
  obtain ⟨s, hs, hk⟩ := Checked.andThen_eq_ok_iff.1 h
  obtain ⟨hshow, rfl⟩ := Value.eq_of_asText (Value.readShown_eq_ok_iff.1 hs)
  split at hk
  · cases hk
    exact ⟨hnull, hshow, rfl⟩
  · exact absurd hk (by simp [Checked.fail])

/-- The value that a document gives as the key of an option. -/
def Value.optionKey? : Value → Option Value
  | record members => Naming.either.value? members "key"
  | _ => none

/-- The options that a document gives a menu. -/
def Value.menuOptions : Value → List Value
  | record members =>
    match Naming.either.value? members "options" with
    | some (list items) => items
    | _ => []
  | _ => []

/-- The nodes that a document gives a flow, under their names. -/
def Value.flowNodes : Value → List (Value × Value)
  | record members => Flow.nodeEntries members
  | _ => []

/-- An option as a document gives it: its key is the text that some value is shown as,
stripped. -/
def MenuOption.IsRead (o : MenuOption) (v : Value) : Prop :=
  ∃ k, v.optionKey? = some k ∧ k ≠ .null ∧ k.isShowable = true ∧ o.key = Text.strip k.display

theorem MenuOption.isRead_of_ofValue {v : Value} {o : MenuOption} (h : ofValue v = .ok o) :
    o.IsRead v := by
  obtain ⟨members, rfl, hrecord⟩ := Value.readRecord_eq_ok_iff.1 h
  obtain ⟨_, target, htext, -, rfl⟩ := Checked.seq_eq_ok_iff.1 hrecord
  obtain ⟨_, text, hkey, -, rfl⟩ := Checked.seq_eq_ok_iff.1 htext
  obtain ⟨key, hread, rfl⟩ := Checked.map_eq_ok_iff.1 hkey
  obtain ⟨k, hk, hread⟩ := Naming.required_eq_ok_iff.1 hread
  exact ⟨k, hk, readKey_eq_ok hread⟩

/-- Only the members of a menu are read as a menu. -/
theorem Behaviour.ofMembers_eq_menu {members : List (Value × Value)} {k : NodeKind}
    {options : List MenuOption} (h : ofMembers members k = .ok (.menu options)) :
    Naming.either.optional members "options" [] Value.readOptions = .ok options := by
  cases k with
  | menu =>
      obtain ⟨_, hread, hb⟩ := Checked.map_eq_ok_iff.1 h
      cases hb
      exact hread
  | input =>
      obtain ⟨_, _, h1, -, hb⟩ := Checked.seq_eq_ok_iff.1 h
      obtain ⟨_, -, rfl⟩ := Checked.map_eq_ok_iff.1 h1
      cases hb
  | terminal => cases h
  | conditional | payment | api =>
      obtain ⟨_, _, h1, -, hb⟩ := Checked.seq_eq_ok_iff.1 h
      obtain ⟨_, _, h2, -, rfl⟩ := Checked.seq_eq_ok_iff.1 h1
      obtain ⟨_, _, h3, -, rfl⟩ := Checked.seq_eq_ok_iff.1 h2
      obtain ⟨_, -, rfl⟩ := Checked.map_eq_ok_iff.1 h3
      cases hb

/-- The options of a menu are those that the document gives, in their order. -/
theorem Node.isRead_of_ofMembers {members : List (Value × Value)} {name : Value} {n : Node}
    {options : List MenuOption} (h : ofMembers members (some name) = .ok n)
    (hb : n.behaviour = .menu options) :
    name.readText = .ok n.id ∧
      List.Forall₂ MenuOption.IsRead options (Value.menuOptions (.record members)) := by
  rw [ofMembers] at h
  split at h
  · exact absurd h (by simp [Checked.fail])
  · split at h
    · exact absurd h (by simp [Checked.fail])
    · obtain ⟨_, b, h1, hread, rfl⟩ := Checked.seq_eq_ok_iff.1 (Checked.inside_eq_ok_iff.1 h)
      obtain ⟨_, text, h2, -, rfl⟩ := Checked.seq_eq_ok_iff.1 h1
      obtain ⟨id, hid, rfl⟩ := Checked.map_eq_ok_iff.1 h2
      have hmenu : b = .menu options := hb
      subst hmenu
      refine ⟨Checked.inside_eq_ok_iff.1 hid, ?_⟩
      rw [Value.menuOptions]
      obtain ⟨hnone, rfl⟩ | ⟨v, hv, hoptions⟩ :=
        Naming.optional_eq_ok_iff.1 (Behaviour.ofMembers_eq_menu hread)
      · rw [hnone]
        exact .nil
      · rw [hv]
        cases v with
        | list items =>
            exact ((Checked.items_eq_ok_iff.1 hoptions).imp
              fun _ _ => MenuOption.isRead_of_ofValue).flip
        | _ => cases hoptions

namespace KeyedList

variable {κ β : Type} [DecidableEq κ] {key : β → κ} {xs : List β} {x : β}

theorem mem_or_mem_of_mem_putAll {t : KeyedList key} (h : x ∈ (t.putAll xs).items) :
    x ∈ xs ∨ x ∈ t.items := by
  induction xs generalizing t with
  | nil => exact .inr h
  | cons y rest ih =>
      rcases ih h with hrest | hput
      · exact .inl (List.mem_cons_of_mem y hrest)
      · have hfound := find?_of_mem hput
        rw [find?_put] at hfound
        split at hfound
        · cases hfound
          exact .inl List.mem_cons_self
        · exact .inr (mem_of_find? hfound)

/-- What is stored from a list are entries of the list. -/
theorem mem_of_mem_ofList (h : x ∈ (ofList xs : KeyedList key).items) : x ∈ xs :=
  (mem_or_mem_of_mem_putAll h).resolve_right List.not_mem_nil

end KeyedList

namespace Flow

variable {f : Flow} {n : Node} {document : Value} {spareId : String} {options : List MenuOption}

theorem readEntry_eq_ok {name node : Value} (h : readEntry name node = .ok n) :
    ∃ members, node = .record members ∧ Node.ofMembers members (some name) = .ok n := by
  obtain ⟨_, _, h1, hread, rfl⟩ := Checked.seq_eq_ok_iff.1 (Checked.inside_eq_ok_iff.1 h)
  obtain ⟨_, -, rfl⟩ := Checked.map_eq_ok_iff.1 h1
  exact Value.readRecord_eq_ok_iff.1 hread

theorem mem_entries_of_foldr {entries : List (Value × Value)} {ns : List Node}
    (h : entries.foldr (fun e rest => List.cons <$> readEntry e.1 e.2 <*> rest) (.ok []) = .ok ns)
    (hn : n ∈ ns) : ∃ e ∈ entries, readEntry e.1 e.2 = .ok n := by
  induction entries generalizing ns with
  | nil =>
      cases h
      cases hn
  | cons e rest ih =>
      obtain ⟨_, ms, h1, hrest, rfl⟩ := Checked.seq_eq_ok_iff.1 h
      obtain ⟨m, hm, rfl⟩ := Checked.map_eq_ok_iff.1 h1
      rcases List.mem_cons.1 hn with rfl | hn
      · exact ⟨e, List.mem_cons_self, hm⟩
      · obtain ⟨e', he', hread⟩ := ih hrest hn
        exact ⟨e', List.mem_cons_of_mem e he', hread⟩

theorem mem_entries_of_readNodes {v : Value} {t : KeyedList Node.id} (h : readNodes v = .ok t)
    (hn : n ∈ t.items) :
    ∃ entries, v = .record entries ∧ ∃ e ∈ entries, readEntry e.1 e.2 = .ok n := by
  cases v with
  | record entries =>
      obtain ⟨ns, hns, rfl⟩ := Checked.map_eq_ok_iff.1 h
      exact ⟨entries, rfl, mem_entries_of_foldr hns (KeyedList.mem_of_mem_ofList hn)⟩
  | _ => cases h

theorem value?_nodes (members : List (Value × Value)) :
    Naming.either.value? members "nodes" = Value.member? members "nodes" := by
  have hspelled : Naming.either.spellings "nodes" = ["nodes", "nodes"] := by decide +kernel
  rw [Naming.value?, hspelled]
  cases h : Value.member? members "nodes" <;> simp [h]

theorem mismatch_ne_ok [Libraries] {name declared : Value} : mismatch name declared ≠ .ok f := by
  intro h
  obtain ⟨_, -, h⟩ := Checked.andThen_eq_ok_iff.1 h
  obtain ⟨_, -, h⟩ := Checked.andThen_eq_ok_iff.1 h
  cases h

/-- Every node of a flow is read from one of the entries of the document. -/
theorem mem_flowNodes_of_load (h : load spareId document = .ok f) (hn : n ∈ f.nodes.items) :
    ∃ e ∈ document.flowNodes, readEntry e.1 e.2 = .ok n := by
  have hread : ofDocument spareId document = .ok f := by
    rw [load] at h
    split at h
    · cases h
      assumption
    · cases h
  obtain ⟨members, rfl, hmembers⟩ := Value.readRecord_eq_ok_iff.1 hread
  split at hmembers
  · exact absurd hmembers mismatch_ne_ok
  · obtain ⟨_, _, h1, -, rfl⟩ := Checked.seq_eq_ok_iff.1 hmembers
    obtain ⟨_, nodes, h2, hnodes, rfl⟩ := Checked.seq_eq_ok_iff.1 h1
    obtain ⟨_, _, h3, -, rfl⟩ := Checked.seq_eq_ok_iff.1 h2
    obtain ⟨_, _, h4, -, rfl⟩ := Checked.seq_eq_ok_iff.1 h3
    obtain ⟨_, _, h5, -, rfl⟩ := Checked.seq_eq_ok_iff.1 h4
    obtain ⟨_, _, h6, -, rfl⟩ := Checked.seq_eq_ok_iff.1 h5
    obtain ⟨_, -, rfl⟩ := Checked.map_eq_ok_iff.1 h6
    rcases Naming.optional_eq_ok_iff.1 hnodes with ⟨-, rfl⟩ | ⟨v, hv, hread⟩
    · cases hn
    · obtain ⟨entries, rfl, e, he, hentry⟩ := mem_entries_of_readNodes hread hn
      rw [value?_nodes] at hv
      refine ⟨e, ?_, hentry⟩
      rw [Value.flowNodes, nodeEntries, hv]
      exact he

/-- A menu of a flow has the options that the document gives the node of its name. -/
theorem isRead_of_load (h : load spareId document = .ok f) (hn : n ∈ f.nodes.items)
    (hb : n.behaviour = .menu options) :
    ∃ name node, name.readText = .ok n.id ∧ (name, node) ∈ document.flowNodes ∧
      List.Forall₂ MenuOption.IsRead options node.menuOptions := by
  obtain ⟨⟨name, node⟩, hmem, hentry⟩ := mem_flowNodes_of_load h hn
  obtain ⟨members, hnode, hread⟩ := readEntry_eq_ok hentry
  obtain ⟨hname, hoptions⟩ := Node.isRead_of_ofMembers hread hb
  dsimp only at hnode
  subst hnode
  exact ⟨name, _, hname, hmem, hoptions⟩

/-! ## Keys in the examination -/

/-- Unless keys are reported as given twice, the keys of every menu differ. -/
theorem keys_nodup_of_findings {limits : Limits}
    (h : ∀ i ∈ (f.report limits).findings, i.kind ≠ "duplicate_option_key")
    (hn : n ∈ f.nodes.items) (hb : n.behaviour = .menu options) :
    (options.map MenuOption.key).Nodup := by
  rw [← repeated_eq_nil_iff]
  by_contra hrepeated
  have hmenu :
      Finding.duplicateKeys n.id (repeated (options.map MenuOption.key)) ∈ checkMenu n := by
    rw [checkMenu, hb]
    cases options with
    | nil => exact absurd rfl hrepeated
    | cons o rest =>
        dsimp only
        cases hkeys : repeated ((o :: rest).map MenuOption.key) with
        | nil => exact absurd hkeys hrepeated
        | cons k more => exact List.mem_singleton_self _
  have hmenus := List.mem_flatMap.2 ⟨n, hn, hmenu⟩
  have hfound : Finding.duplicateKeys n.id (repeated (options.map MenuOption.key)) ∈
      (f.report limits).findings := by
    simp only [report, findings, List.mem_append, hmenus, true_or, or_true]
  exact h _ hfound rfl

end Flow

/-! ## Keys typed by callers -/

namespace Node

variable {n : Node} {options : List MenuOption}

theorem option?_key (hb : n.behaviour = .menu options)
    (hkeys : (options.map MenuOption.key).Nodup) {o : MenuOption} (ho : o ∈ options) :
    n.option? o.key = some o := by
  have hoptions : n.options = options := by rw [Node.options, hb]
  obtain ⟨o', ho'⟩ : ∃ o', n.option? o.key = some o' := by
    rw [option?, ← Option.isSome_iff_exists, List.find?_isSome]
    exact ⟨o, hoptions ▸ ho, beq_self_eq_true _⟩
  have hkey := List.find?_some ho'
  have hmem := List.mem_of_find?_eq_some ho'
  rw [hoptions] at hmem
  rw [ho', List.inj_on_of_nodup_map hkeys hmem ho (eq_of_beq hkey)]

theorem option?_of_not_mem (hb : n.behaviour = .menu options) {key : String}
    (h : key ∉ options.map MenuOption.key) : n.option? key = none := by
  have hoptions : n.options = options := by rw [Node.options, hb]
  rw [option?, hoptions, List.find?_eq_none]
  intro o ho heq
  exact h (eq_of_beq heq ▸ List.mem_map_of_mem ho)

end Node

/-- What comes of choosing an option: the session follows its target, and its key is
recorded. -/
def MenuOption.chosen (o : MenuOption) : Outcome :=
  ⟨.along o.target, .empty, .ofList [("selected_option", .text o.key)]⟩

/-- **Choices.**  Let a flow be loaded whose examination, whatever the limits, finds no
key twice in a menu.  Each option of each of its menus is chosen by its key with any
blanks around it, and an input that is no such key is answered with an error.  The
options are those of the document: the key of each is the text that some value is
shown as, stripped, and so that text chooses it as well. -/
theorem Flow.options_chosen {spareId : String} {document : Value} {f : Flow} {limits : Limits}
    {n : Node} {options : List MenuOption} (hload : load spareId document = .ok f)
    (hkeys : ∀ i ∈ (f.report limits).findings, i.kind ≠ "duplicate_option_key")
    (hn : n ∈ f.nodes.items) (hb : n.behaviour = .menu options) (bindings : Dict String)
    (result : ActionResult) :
    (∀ o ∈ options, ∀ p q, Text.isBlankText p = true → Text.isBlankText q = true →
      Handler.menu.handle n bindings (p ++ o.key ++ q) result = .ok o.chosen) ∧
    (∀ input, Text.strip input ∉ options.map MenuOption.key →
      Handler.menu.handle n bindings input result =
        .ok ⟨.stay "Invalid option selected", .empty, .ofList [("selected", .text input)]⟩) ∧
    ∃ name node, name.readText = .ok n.id ∧ (name, node) ∈ document.flowNodes ∧
      List.Forall₂ (fun o v => ∃ k, v.optionKey? = some k ∧ k ≠ .null ∧
        o.key = Text.strip k.display ∧
        Handler.menu.handle n bindings k.display result = .ok o.chosen)
        options node.menuOptions := by
  have hnodup := keys_nodup_of_findings hkeys hn hb
  have hhandle (input : String) :
      Handler.menu.handle n bindings input result = Handler.choose n input := by
    simp only [Handler.handle, hb]
  have hchosen (o : MenuOption) (ho : o ∈ options) (input : String)
      (hinput : Text.strip input = o.key) :
      Handler.menu.handle n bindings input result = .ok o.chosen := by
    have hfound := Node.option?_key hb hnodup ho
    rw [← hinput] at hfound
    rw [hhandle, Handler.choose_of_some hfound, MenuOption.chosen]
  refine ⟨fun o ho p q hp hq => hchosen o ho _ ?_, fun input hinput => ?_, ?_⟩
  · rw [Text.strip_pad hp hq, Text.strip_of_isTrimmed o.key_trimmed]
  · rw [hhandle, Handler.choose_of_none (Node.option?_of_not_mem hb hinput)]
  · obtain ⟨name, node, hname, hmem, hread⟩ := isRead_of_load hload hn hb
    refine ⟨name, node, hname, hmem, ((List.forall₂_and_left options node.menuOptions).2
      ⟨fun o ho => ho, hread⟩).imp ?_⟩
    rintro o v ⟨ho, k, hk, hnull, -, hkey⟩
    exact ⟨k, hk, hnull, hkey, hchosen o ho k.display hkey.symm⟩

/-- A document of a flow whose keys are a number, a truth value and a text with blanks. -/
def surveyDocument : Value :=
  .object [("startNodeId", .text "ask"), ("nodes", .object [
    ("ask", .object [("kind", .text "menu"), ("options", .list [
      .object [("key", .int 7), ("targetNodeId", .text "thanks")],
      .object [("key", .bool true)],
      .object [("key", .text " 9 ")]])]),
    ("thanks", .object [("kind", .text "end")])])]

/-- The menu of that flow. -/
def surveyOptions : List MenuOption :=
  [⟨"7", "", some "thanks", by decide⟩, ⟨"True", "", none, by decide⟩, ⟨"9", "", none, by decide⟩]

/-- That flow. -/
def survey : Flow where
  id := "survey"
  name := none
  description := none
  version := 1
  startNode := "ask"
  nodes := .ofList [⟨"ask", "", .menu surveyOptions⟩, ⟨"thanks", "", .terminal⟩]
  defaults := .empty
  one_le_version := Flow.one_le_firstVersion

/-- A tab and a space around the number, and the truth value as it is shown, choose the
first two options of that flow; in small letters it chooses none. -/
theorem options_chosen_survey :
    Flow.load "survey" surveyDocument = .ok survey ∧
      (∀ i ∈ (survey.report .standard).findings, i.kind ≠ "duplicate_option_key") ∧
      Node.mk "ask" "" (.menu surveyOptions) ∈ survey.nodes.items ∧
      Handler.menu.handle (.mk "ask" "" (.menu surveyOptions)) .empty ("\t" ++ "7" ++ " ")
          ⟨true, [], none⟩ =
        .ok ⟨.to "thanks", .empty, .ofList [("selected_option", .text "7")]⟩ ∧
      Handler.menu.handle (.mk "ask" "" (.menu surveyOptions)) .empty "true" ⟨true, [], none⟩ =
        .ok ⟨.stay "Invalid option selected", .empty, .ofList [("selected", .text "true")]⟩ ∧
      ∃ name node, name.readText = .ok "ask" ∧ (name, node) ∈ surveyDocument.flowNodes ∧
        List.Forall₂ (fun o v => ∃ k, v.optionKey? = some k ∧ k ≠ .null ∧
          o.key = Text.strip k.display ∧
          Handler.menu.handle (.mk "ask" "" (.menu surveyOptions)) .empty k.display
            ⟨true, [], none⟩ = .ok o.chosen) surveyOptions node.menuOptions := by
  have hload : Flow.load "survey" surveyDocument = .ok survey := by decide +kernel
  have hkeys : ∀ i ∈ (survey.report .standard).findings, i.kind ≠ "duplicate_option_key" := by
    decide +kernel
  have hn : Node.mk "ask" "" (.menu surveyOptions) ∈ survey.nodes.items := by decide +kernel
  obtain ⟨hchosen, hrefused, hread⟩ :=
    Flow.options_chosen hload hkeys hn rfl .empty ⟨true, [], none⟩
  refine ⟨hload, hkeys, hn, ?_, hrefused "true" (by decide +kernel), hread⟩
  exact hchosen _ List.mem_cons_self "\t" " " (by decide +kernel) (by decide +kernel)

end UssdFlows
