import UssdFlows.FlowTool
import UssdFlows.Proofs.Document.Faults
import UssdFlows.Proofs.Document.Numerals
import UssdFlows.Proofs.Flow.Raises

/-!
# What comes of loading

A flow that cannot be loaded is reported as a faulty definition, unless the loading
leaks: it fails for a cause that nobody reports (`LoadError.Leaks`).  Loading is a
sequence of stages, and it leaks if one of them does (`LoadError.leaks_bind`); so for
documents, JSON texts and files there is one lemma each on what makes them leak
(`leaks_load`, `leaks_loadJson`, `leaks_loadFile`).  All of this holds for any
libraries, whatever they give up on.

The tool looks at one file after the other.  A file without a verdict is one whose
loading leaks unless it is not there (`FlowTool.StoppedAt`), and the first of these
stops the tool.
-/

namespace UssdFlows

/-! ## Causes that are not reported -/

/-- A loading fails, and not for a cause that is reported as a fault of the definition. -/
def LoadError.Leaks {α : Type} (r : Except LoadError α) : Prop :=
  ∃ err, r = .error err ∧ err.isReported = false

namespace LoadError

variable {α β : Type}

@[simp]
theorem not_leaks_ok {a : α} : ¬ Leaks (.ok a) := by
  rintro ⟨_, h, -⟩
  cases h

@[simp]
theorem leaks_error {err : LoadError} :
    Leaks (.error err : Except LoadError α) ↔ err.isReported = false := by
  simp [Leaks]

theorem leaks_bind {x : Except LoadError α} {f : α → Except LoadError β} :
    Leaks (x >>= f) ↔ Leaks x ∨ ∃ a, x = .ok a ∧ Leaks (f a) := by
  cases x with
  | error err => simp [show (Except.error err >>= f) = .error err from rfl]
  | ok a => simp [show (Except.ok a >>= f) = f a from rfl]

@[simp]
theorem isReported_badJson {source : JsonSource} {text : String} {failure : Json.Failure} :
    (badJson source text failure).isReported = failure.fault.isGrammar := rfl

@[simp]
theorem isReported_badYaml {fault : Yaml.Fault} :
    (badYaml fault).isReported = fault.isGrammar := rfl

end LoadError

/-! ## Runs over lists -/

section Runs

variable {α β ε : Type} {f : α → Except ε β}

theorem mapM_cons_of_ok {a : α} {b : β} (h : f a = .ok b) (rest : List α) :
    (a :: rest).mapM f = List.cons b <$> rest.mapM f := by
  rw [List.mapM_cons, h]
  cases rest.mapM f <;> rfl

theorem mapM_cons_of_error {a : α} {err : ε} (h : f a = .error err) (rest : List α) :
    (a :: rest).mapM f = .error err := by
  rw [List.mapM_cons, h]
  rfl

/-- If no item stops, all are gone through. -/
theorem exists_mapM {as : List α} (h : ∀ a ∈ as, ∃ b, f a = .ok b) :
    ∃ bs, as.mapM f = .ok bs ∧ ∀ a ∈ as, ∃ b ∈ bs, f a = .ok b := by
  induction as with
  | nil => exact ⟨[], rfl, nofun⟩
  | cons a rest ih =>
      obtain ⟨b, hb⟩ := h a (List.mem_cons_self ..)
      obtain ⟨bs, hbs, hall⟩ := ih fun a ha => h a (List.mem_cons_of_mem _ ha)
      refine ⟨b :: bs, by rw [mapM_cons_of_ok hb, hbs]; rfl, fun a' ha' => ?_⟩
      rcases List.mem_cons.1 ha' with rfl | hrest
      · exact ⟨b, List.mem_cons_self .., hb⟩
      · obtain ⟨b', hb', heq⟩ := hall a' hrest
        exact ⟨b', List.mem_cons_of_mem _ hb', heq⟩

/-- The first item that stops decides, whatever comes behind it. -/
theorem mapM_eq_error {before after : List α} {a : α} {err : ε}
    (hbefore : ∀ a' ∈ before, ∃ b, f a' = .ok b) (ha : f a = .error err) :
    (before ++ a :: after).mapM f = .error err := by
  induction before with
  | nil => exact mapM_cons_of_error ha after
  | cons a' rest ih =>
      obtain ⟨b, hb⟩ := hbefore a' (List.mem_cons_self ..)
      rw [List.cons_append, mapM_cons_of_ok hb, ih fun a h => hbefore a (List.mem_cons_of_mem _ h)]
      rfl

end Runs

section Loading

variable [Libraries]

/-! ## Documents and texts -/

namespace Flow

/-- **Documents.**  The loading of a document leaks if the reading raises something. -/
theorem leaks_load {spareId : String} {document : Value} :
    LoadError.Leaks (load spareId document) ↔ Raises document := by
  rw [← @raises_ofDocument _ spareId document, load]
  cases h : ofDocument spareId document with
  | ok f => simp
  | bad problems => simp [LoadError.isReported]

theorem leaks_readJson {text : String} : LoadError.Leaks (readJson text) ↔
    ∃ failure, Libraries.json text = .error failure ∧ failure.fault.isGrammar = false := by
  rw [readJson]
  split
  · simp [*]
  · simp [*]
  · simp [LoadError.isReported, *]

/-- A text is read if it holds a record. -/
theorem readJson_eq_ok_iff {text : String} {document : Value} : readJson text = .ok document ↔
    Libraries.json text = .ok document ∧ ∃ members, document = .record members := by
  rw [readJson]
  cases Libraries.json text with
  | error failure => simp
  | ok v =>
      cases v with
      | record members => simpa using fun h => ⟨members, h.symm⟩
      | _ =>
          refine iff_of_false nofun ?_
          rintro ⟨h, members, rfl⟩
          cases h

omit [Libraries] in
theorem Raises.isRecord [Libraries] {document : Value} (h : Raises document) :
    ∃ members, document = .record members := by
  cases h <;> exact ⟨_, rfl⟩

/-- **JSON texts.** -/
theorem leaks_loadJson {spareId text : String} :
    LoadError.Leaks (loadJson spareId text) ↔
      (∃ failure, Libraries.json text = .error failure ∧ failure.fault.isGrammar = false) ∨
        ∃ document, Libraries.json text = .ok document ∧ Raises document := by
  rw [loadJson, LoadError.leaks_bind, leaks_readJson]
  simp only [readJson_eq_ok_iff, leaks_load]
  refine or_congr_right (exists_congr fun document => ?_)
  constructor
  · rintro ⟨⟨hread, -⟩, h⟩
    exact ⟨hread, h⟩
  · rintro ⟨hread, h⟩
    exact ⟨⟨hread, h.isRecord⟩, h⟩

/-! ## Files -/

/-- What makes the loading of a flow file leak, given the suffix of its name and its
octets. -/
inductive Spoils (suffix : String) (octets : ByteArray) : Prop
  /-- The octets of a JSON file are not text. -/
  | octets (hjson : suffix = ".json") (htext : textOf? octets = none)
  /-- JSON is refused, and not for its grammar. -/
  | json {text : String} {failure : Json.Failure} (hjson : suffix = ".json")
      (htext : textOf? octets = some text) (hread : Libraries.json text = .error failure)
      (hfault : failure.fault.isGrammar = false)
  /-- Block notation is refused for a cause that is not reported. -/
  | block {fault : Yaml.Fault} (hblock : suffix ≠ ".json")
      (hread : Libraries.block octets = .error fault)
      (hfault : fault.isGrammar = false)
  /-- The reading of the definition raises something. -/
  | document {document : Value} (hread : readOctets suffix octets = .ok document)
      (h : Raises document)

/-- There is a file with the name of a flow file, and its octets spoil it. -/
def SpoiledAt (tree : FileTree) (path : FileName) : Prop :=
  ∃ octets, tree.look path = .ok (some (.file (.ok octets))) ∧
    LoadError.suffixes.contains path.suffix.toLower = true ∧ Spoils path.suffix.toLower octets

theorem leaks_readOctets {suffix : String} {octets : ByteArray} :
    LoadError.Leaks (readOctets suffix octets) ↔
      (suffix = ".json" ∧ (textOf? octets = none ∨ ∃ text failure, textOf? octets = some text ∧
        Libraries.json text = .error failure ∧ failure.fault.isGrammar = false)) ∨
      suffix ≠ ".json" ∧ ∃ fault, Libraries.block octets = .error fault ∧
        fault.isGrammar = false := by
  rw [readOctets]
  by_cases hjson : suffix = ".json"
  · rw [if_pos hjson]
    cases htext : textOf? octets with
    | none => simp [hjson, LoadError.isReported]
    | some text => cases hread : Libraries.json text <;> simp [hjson, hread]
  · rw [if_neg hjson]
    cases hread : Libraries.block octets <;> simp [hjson]

theorem spoils_iff {suffix : String} {octets : ByteArray} :
    Spoils suffix octets ↔ LoadError.Leaks (readOctets suffix octets) ∨
      ∃ v, readOctets suffix octets = .ok v ∧ Raises v := by
  rw [leaks_readOctets]
  constructor
  · rintro (⟨hjson, htext⟩ | ⟨hjson, htext, hread, hfault⟩ | ⟨hblock, hread, hfault⟩ | ⟨hread, h⟩)
    · exact .inl (.inl ⟨hjson, .inl htext⟩)
    · exact .inl (.inl ⟨hjson, .inr ⟨_, _, htext, hread, hfault⟩⟩)
    · exact .inl (.inr ⟨hblock, _, hread, hfault⟩)
    · exact .inr ⟨_, hread, h⟩
  · rintro ((⟨hjson, htext | ⟨_, _, htext, hread, hfault⟩⟩ | ⟨hblock, _, hread, hfault⟩) |
      ⟨_, hread, h⟩)
    · exact .octets hjson htext
    · exact .json hjson htext hread hfault
    · exact .block hblock hread hfault
    · exact .document hread h

/-- A definition without an id raises what it raises with the spare one. -/
theorem raises_append_id {members : List (Value × Value)} {v : Value} :
    Raises (.record (members ++ [(.text "id", v)])) ↔ Raises (.record members) := by
  have hother (name : String) (h : name ≠ "id") :
      Value.member? (members ++ [(.text "id", v)]) name = Value.member? members name := by
    simp [Value.member?, Value.sameName_text, h.symm]
  have hnodes : nodeEntries (members ++ [(.text "id", v)]) = nodeEntries members := by
    rw [nodeEntries, hother "nodes" (by decide), nodeEntries]
  have hvariables : Naming.either.value? (members ++ [(.text "id", v)]) "variables" =
      Naming.either.value? members "variables" := by
    have hspelled : Naming.either.spellings "variables" = ["variables", "variables"] := by
      decide +kernel
    simp only [Naming.value?, hspelled, List.findSome?_cons, List.findSome?_nil,
      hother "variables" (by decide)]
  rw [← @raises_ofDocument _ "", ← @raises_ofDocument _ ""]
  simp only [ofDocument, Value.readRecord, hnodes]
  split
  · rfl
  · rw [raises_ofMembers, raises_ofMembers, hnodes, hvariables]

section Files

variable {tree : FileTree} {shown : String} {path : FileName} {octets : ByteArray}

theorem readFile_of_barred {why : String} (h : tree.look path = .error why) :
    readFile tree shown path = .error (.barred why) := by
  rw [readFile, h]
  rfl

theorem readFile_of_none (h : tree.look path = .ok none) :
    readFile tree shown path = .error (.notFound shown) := by
  rw [readFile, h]
  rfl

theorem readFile_of_directory (h : tree.look path = .ok (some .directory)) :
    readFile tree shown path = .error (.notAFile shown) := by
  rw [readFile, h]
  rfl

theorem readFile_of_unsupported {content : Except String ByteArray}
    (h : tree.look path = .ok (some (.file content)))
    (hsuffix : LoadError.suffixes.contains path.suffix.toLower = false) :
    readFile tree shown path = .error (.unsupportedType path.suffix) := by
  rw [readFile, h]
  simp only [hsuffix]
  rfl

theorem readFile_of_unreadable {why : String}
    (h : tree.look path = .ok (some (.file (.error why))))
    (hsuffix : LoadError.suffixes.contains path.suffix.toLower = true) :
    readFile tree shown path = .error (.unreadable why) := by
  rw [readFile, h]
  simp only [hsuffix]
  rfl

theorem readFile_of_octets (h : tree.look path = .ok (some (.file (.ok octets))))
    (hsuffix : LoadError.suffixes.contains path.suffix.toLower = true) :
    readFile tree shown path = readOctets path.suffix.toLower octets >>= documentOf path := by
  rw [readFile, h]
  simp only [hsuffix]
  rfl

omit [Libraries] in
theorem leaks_documentOf {v : Value} : ¬ LoadError.Leaks (documentOf path v) := by
  cases v with
  | record members =>
      rw [documentOf]
      split <;> simp
  | _ => simp [documentOf, LoadError.isReported]

/-- The document of a file raises what its value does. -/
theorem raises_documentOf {v : Value} :
    (∃ document, documentOf path v = .ok document ∧ Raises document) ↔ Raises v := by
  cases v with
  | record members =>
      rw [documentOf]
      split <;> simp [raises_append_id]
  | _ =>
      refine iff_of_false (by simp [documentOf]) fun h => ?_
      obtain ⟨members, h⟩ := h.isRecord
      cases h

/-- **Files.**  The loading of a file leaks if the system does not say whether there is one,
if there is none, or if it is spoiled. -/
theorem leaks_loadFile : LoadError.Leaks (loadFile tree shown path) ↔
    (∃ why, tree.look path = .error why) ∨ tree.look path = .ok none ∨
      SpoiledAt tree path := by
  rw [loadFile, SpoiledAt]
  cases hentry : tree.look path with
  | error why => simp [LoadError.leaks_bind, readFile_of_barred hentry, LoadError.isReported]
  | ok found =>
      rcases found with _ | ⟨why | octets⟩ | _
      · simp [LoadError.leaks_bind, readFile_of_none hentry, LoadError.isReported]
      · cases hsuffix : LoadError.suffixes.contains path.suffix.toLower with
        | false =>
            simp [LoadError.leaks_bind, readFile_of_unsupported hentry hsuffix,
              LoadError.isReported]
        | true =>
            simp [LoadError.leaks_bind, readFile_of_unreadable hentry hsuffix,
              LoadError.isReported]
      · cases hsuffix : LoadError.suffixes.contains path.suffix.toLower with
        | false =>
            simp [LoadError.leaks_bind, readFile_of_unsupported hentry hsuffix,
              LoadError.isReported]
        | true =>
            have hrest (v : Value) : LoadError.Leaks (documentOf path v >>= load path.stem) ↔
                Raises v := by
              simp [LoadError.leaks_bind, leaks_documentOf, leaks_load, raises_documentOf]
            rw [readFile_of_octets hentry hsuffix, bind_assoc, LoadError.leaks_bind]
            simp [hrest, spoils_iff]
      · simp [LoadError.leaks_bind, readFile_of_directory hentry, LoadError.isReported]

end Files

end Flow

/-! ## The tool -/

namespace FlowTool

variable {tree : FileTree} {path : FileName} {paths : List FileName}

/-- The tool is stopped at a path: the system does not say what is there, or it is a spoiled
file. -/
def StoppedAt (tree : FileTree) (path : FileName) : Prop :=
  (∃ why, tree.look path = .error why) ∨ Flow.SpoiledAt tree path

omit [Libraries] in
theorem finds_of_ok {found : Option FileEntry} (h : tree.look path = .ok found) :
    finds tree path = .ok found.isSome := by
  rw [finds, FileTree.contains, h]
  rfl

/-- A path that stops the tool. -/
theorem validateFile_of_stoppedAt (h : StoppedAt tree path) :
    ∃ err, err.isReported = false ∧ Flow.loadFile tree path.text path = .error err ∧
      validateFile tree path = .error err := by
  rcases h with ⟨why, h⟩ | h
  · have hload : Flow.loadFile tree path.text path = .error (.barred why) := by
      rw [Flow.loadFile, Flow.readFile_of_barred h]
      rfl
    refine ⟨.barred why, rfl, hload, ?_⟩
    have hfinds : finds tree path = .error (.barred why) := by
      rw [finds, FileTree.contains, h]
      rfl
    rw [validateFile, hfinds]
    rfl
  · have hleaks : LoadError.Leaks (Flow.loadFile tree path.text path) :=
      Flow.leaks_loadFile.2 (.inr (.inr h))
    obtain ⟨err, hload, hreported⟩ := hleaks
    obtain ⟨octets, hentry, -⟩ := h
    refine ⟨err, hreported, hload, ?_⟩
    simp only [validateFile, finds_of_ok hentry, load, hload, hreported]
    rfl

theorem not_stoppedAt_of_not_leaks (shown : String)
    (h : ¬ LoadError.Leaks (Flow.loadFile tree shown path)) : ¬ StoppedAt tree path :=
  fun hstopped => h (Flow.leaks_loadFile.2 (hstopped.imp_right .inr))

/-- Any other path gets a verdict. -/
theorem exists_validateFile (h : ¬ StoppedAt tree path) :
    ∃ v, validateFile tree path = .ok v := by
  rw [StoppedAt, not_or] at h
  cases hentry : tree.look path with
  | error why => exact absurd ⟨why, hentry⟩ h.1
  | ok found =>
      rw [validateFile, finds_of_ok hentry]
      cases found with
      | none => exact ⟨_, rfl⟩
      | some entry =>
          cases hload : Flow.loadFile tree path.text path with
          | ok f =>
              simp only [load, hload]
              exact ⟨_, rfl⟩
          | error err =>
              have hreported : err.isReported = true := by
                by_contra hleaks
                rcases Flow.leaks_loadFile.1 ⟨err, hload, Bool.eq_false_iff.2 hleaks⟩ with
                  hbarred | hnone | hspoiled
                · exact h.1 hbarred
                · cases hentry.symm.trans hnone
                · exact h.2 hspoiled
              simp only [load, hload, hreported]
              exact ⟨_, rfl⟩

/-- If nothing stops it, the tool prints the verdict on each file. -/
theorem exists_validate (hpaths : paths ≠ []) (h : ∀ path ∈ paths, ¬ StoppedAt tree path) :
    ∃ run, validate tree paths = .ok run ∧
      ∀ path ∈ paths, ∃ v, validateFile tree path = .ok v ∧ v.1 <:+: run.lines := by
  obtain ⟨vs, hvs, hall⟩ := exists_mapM fun path hpath => exists_validateFile (h path hpath)
  have hsome : paths.isEmpty = false := by simpa using hpaths
  simp only [validate, hsome, hvs]
  refine ⟨_, rfl, fun path hpath => ?_⟩
  obtain ⟨v, hv, hverdict⟩ := hall path hpath
  refine ⟨v, hverdict, ?_⟩
  exact (List.infix_of_mem_flatten (List.mem_map_of_mem hv)).trans (List.infix_append ..)

/-- The first path that stops the tool does so whatever files come behind it. -/
theorem validate_of_stoppedAt {before : List FileName}
    (hbefore : ∀ path ∈ before, ¬ StoppedAt tree path) (h : StoppedAt tree path) :
    ∃ err, err.isReported = false ∧ Flow.loadFile tree path.text path = .error err ∧
      ∀ after, validate tree (before ++ path :: after) = .error err := by
  obtain ⟨err, hreported, hload, hstops⟩ := validateFile_of_stoppedAt h
  refine ⟨err, hreported, hload, fun after => ?_⟩
  have hsome : (before ++ path :: after).isEmpty = false := by simp
  simp only [validate, hsome,
    mapM_eq_error (fun path hpath => exists_validateFile (hbefore path hpath)) hstops]
  rfl

end FlowTool

end Loading

/-! ## What libraries refuse -/

namespace Libraries

variable [Libraries]

/-- JSON that is not refused for its grammar is given up on, or it has a whole number with
too many digits at the place where it is refused. -/
theorem raised_or_atNumeral {text : String} {failure : Json.Failure}
    (h : json text = .error failure) (hfault : failure.fault.isGrammar = false) :
    (∃ why, failure.fault = .raised why) ∨ failure.AtNumeral text.toList := by
  rcases json_eq text with heq | ⟨failure', why, hraised, hwhy⟩
  · rcases Json.numeralAt_of_read (heq ▸ h) with hgrammar | hnumeral
    · rw [hfault] at hgrammar
      cases hgrammar
    · exact .inr hnumeral
  · cases hraised.symm.trans h
    exact .inl ⟨why, hwhy⟩

/-- A pattern that raises something counts too far, unless it is given up on or it names
characters. -/
theorem tooLarge_or_raised {s : String} (h : Pattern.Raises s) (hnames : ¬ Pattern.HasNames s) :
    Pattern.ofText s = .error .repetitionTooLarge ∨ ∃ why, pattern s = .error (.raised why) := by
  rcases h with h | h
  · rcases pattern_eq s hnames with heq | hraised
    · exact .inl (heq ▸ h)
    · exact .inr hraised
  · exact .inr h

/-- A text in block notation is refused for a cause that is not reported, although it is one
of which nothing is left open: either it is given up on, or it cannot be cut into tokens, or
there is a scalar that has no value. -/
theorem raised_or_scalar {octets : ByteArray} {text : String} {fault : Yaml.Fault}
    (htext : textOf? octets = some text)
    (hclosed : ∀ fault, Yaml.read text = .error fault → fault.isOpen = false)
    (h : block octets = .error fault) (hleaks : fault.isGrammar = false) :
    (∃ why, fault = .raised why) ∨ (Yaml.tokens text = .error fault ∧ fault.IsCutting) ∨
      ∃ ts n tag s, Yaml.tokens text = .ok ts ∧ Yaml.compose ts = .ok (some n) ∧
        n.Has tag s ∧ Yaml.scalarValue tag s = .error fault := by
  have hfault : (∃ why, fault = .raised why) ∨ Yaml.HasFault text fault := by
    rcases block_eq octets text htext hclosed with heq | ⟨why, hraised⟩ | ⟨_, _, -, hother, h'⟩
    · exact .inr (Yaml.fault_of_read (heq ▸ h))
    · cases hraised.symm.trans h
      exact .inl ⟨why, rfl⟩
    · cases hother.symm.trans h
      exact .inr h'
  rcases hfault with hraised | hgrammar | hcut | ⟨hts, hn, hhas, hs⟩
  · exact .inl hraised
  · cases hleaks.symm.trans hgrammar
  · exact .inr (.inl ⟨hcut, Yaml.meets_tokens text fault hcut⟩)
  · exact .inr (.inr ⟨_, _, _, _, hts, hn, hhas, hs⟩)

end Libraries

/-! ## All that leaks -/

/-- **Leaks.**  Whatever the libraries give up on, a flow that cannot be loaded is reported
as a faulty definition, but for these causes:

* the loading of a document leaks if the reading raises something, in a pattern or where a
  value is shown as text; a pattern does so if it counts too far or is given up on;
* that of a JSON text does so too, and if the text is given up on or has a whole number with
  too many digits, which then stands where the text is refused;
* that of a file leaks if the system does not say whether there is one; if there is none,
  which is what the failure says; or if the file is spoiled: by octets that are not text, by
  such JSON, by such a definition, or by block notation that is given up on or that has a
  value that cannot be made.  In block notation of the last kind either the text cannot be
  cut into tokens, or there is a scalar that has no value.

So the tool has a verdict on each of some files if it is stopped at none of them.  The first
file that stops it does so in the same way whatever files come behind it.  A directory that
cannot be listed stops it as well. -/
theorem Flow.leaks_exactly [Libraries] (spareId text shown : String) (document : Value)
    (octets : ByteArray) (tree : FileTree) (path directory : FileName) (paths : List FileName) :
    (LoadError.Leaks (load spareId document) ↔ Raises document) ∧
    (∀ s, Pattern.Raises s → ¬ Pattern.HasNames s →
      Pattern.ofText s = .error .repetitionTooLarge ∨
        ∃ why, Libraries.pattern s = .error (.raised why)) ∧
    (LoadError.Leaks (loadJson spareId text) ↔
      (∃ failure, Libraries.json text = .error failure ∧ failure.fault.isGrammar = false) ∨
        ∃ document, Libraries.json text = .ok document ∧ Raises document) ∧
    (∀ failure, Libraries.json text = .error failure → failure.fault.isGrammar = false →
      (∃ why, failure.fault = .raised why) ∨ failure.AtNumeral text.toList) ∧
    (LoadError.Leaks (loadFile tree shown path) ↔
      (∃ why, tree.look path = .error why) ∨ tree.look path = .ok none ∨
        SpoiledAt tree path) ∧
    (tree.look path = .ok none → loadFile tree shown path = .error (.notFound shown)) ∧
    (∀ text fault, textOf? octets = some text →
      (∀ fault, Yaml.read text = .error fault → fault.isOpen = false) →
      Libraries.block octets = .error fault → fault.isGrammar = false →
      (∃ why, fault = .raised why) ∨ (Yaml.tokens text = .error fault ∧ fault.IsCutting) ∨
        ∃ ts n tag s, Yaml.tokens text = .ok ts ∧ Yaml.compose ts = .ok (some n) ∧
          n.Has tag s ∧ Yaml.scalarValue tag s = .error fault) ∧
    (paths ≠ [] → (∀ path ∈ paths, ¬ FlowTool.StoppedAt tree path) →
      ∃ run, FlowTool.validate tree paths = .ok run ∧
        ∀ path ∈ paths, ∃ v, FlowTool.validateFile tree path = .ok v ∧ v.1 <:+: run.lines) ∧
    (∀ before after, paths = before ++ path :: after →
      (∀ p ∈ before, ¬ FlowTool.StoppedAt tree p) → FlowTool.StoppedAt tree path →
        ∃ err, err.isReported = false ∧ loadFile tree path.text path = .error err ∧
          FlowTool.validate tree paths = .error err) ∧
    (discover tree directory = .ok paths →
      FlowTool.perform tree directory (.validate none) = FlowTool.validate tree paths) ∧
    ∀ why, tree.names directory = .error why →
      FlowTool.perform tree directory (.validate none) = .error (.barred why) := by
  refine ⟨leaks_load, fun _ => Libraries.tooLarge_or_raised, leaks_loadJson,
    fun _ => Libraries.raised_or_atNumeral, leaks_loadFile, fun hnone => ?_,
    fun _ _ => Libraries.raised_or_scalar, FlowTool.exists_validate,
    fun before after hsplit hbefore hstopped => ?_, fun hpaths => ?_, fun why hwhy => ?_⟩
  · rw [loadFile, readFile_of_none hnone]
    rfl
  · subst hsplit
    obtain ⟨err, hreported, hload, hstops⟩ := FlowTool.validate_of_stoppedAt hbefore hstopped
    exact ⟨err, hreported, hload, hstops after⟩
  · rw [FlowTool.perform, hpaths]
    rfl
  · rw [FlowTool.perform, discover, hwhy]
    rfl

/-- Four files: an octet that is no text, a character that there is not, an empty flow, and a
file that may not be opened.  Nothing is said of a path whose name is too long. -/
def FileTree.mixed : FileTree where
  files := [(["mixed.json"], .ok ⟨#[0xFF]⟩), (["mixed.yaml"], .ok "\"\\U00110000\"".toUTF8),
    (["plain.json"], .ok "\x7b\"startNodeId\": \"start\"\x7d".toUTF8),
    (["locked.json"], .error "Permission denied")]
  directories := []
  barred? := fun path => if 255 < path.last.length then some "File name too long" else none

theorem FileTree.look_mixed_of_long {name : String} (h : 255 < name.length) :
    FileTree.mixed.look ⟨"", [name]⟩ = .error "File name too long" := by
  have hbarred : FileTree.mixed.barred? ⟨"", [name]⟩ = some "File name too long" := if_pos h
  rw [look, hbarred]

theorem Flow.spoiledAt_mixed : SpoiledAt .mixed (.ofText "mixed.json") := by
  have hentry : FileTree.mixed.look (.ofText "mixed.json") =
      .ok (some (.file (.ok ⟨#[0xFF]⟩))) := by rfl
  have hsuffix : (FileName.ofText "mixed.json").suffix.toLower = ".json" := by decide +kernel
  refine ⟨_, hentry, ?_, .octets hsuffix (by decide +kernel)⟩
  rw [hsuffix]
  decide +kernel

theorem FlowTool.not_stoppedAt_plain : ¬ StoppedAt .mixed (.ofText "plain.json") := by
  refine not_stoppedAt_of_not_leaks "plain.json" ?_
  rintro ⟨err, herr, -⟩
  have hload : (Flow.loadFile .mixed "plain.json" (.ofText "plain.json")).toOption.isSome =
      true := by decide +kernel
  rw [herr] at hload
  cases hload

theorem FlowTool.not_stoppedAt_locked : ¬ StoppedAt .mixed (.ofText "locked.json") := by
  refine not_stoppedAt_of_not_leaks "locked.json" ?_
  have hload : Flow.loadFile .mixed "locked.json" (.ofText "locked.json") =
      .error (.unreadable "Permission denied") := by decide +kernel
  rw [hload, LoadError.leaks_error]
  decide

/-- The readers of this development, with room for so many lists in a JSON text. -/
@[reducible]
def Libraries.cramped (room : Nat) : Libraries where
  json text :=
    if room < text.toList.count '[' then .error ⟨.raised "maximum recursion depth exceeded", 0⟩
    else Json.read text
  block := Yaml.readOctets
  pattern := Pattern.ofText
  shown := Value.asText
  json_eq text := by
    split
    · exact .inr ⟨_, _, rfl, rfl⟩
    · exact .inl rfl
  block_eq := standard.block_eq
  block_refuses := standard.block_refuses
  pattern_eq := standard.pattern_eq
  shown_eq := standard.shown_eq

/-- The last two of these files have their verdicts, but not if the tool is to look at the
first one too, or at a path with a long name.  A file that is not there is reported by its
name.  The second file is refused while it is cut, and a text of so many digits has them all
at its start.  A text of so many lists leaks if there is no room for them. -/
theorem Flow.leaks_mixed :
    (∃ err, err.isReported = false ∧
      FlowTool.validate .mixed [.ofText "mixed.json", .ofText "plain.json"] = .error err) ∧
    (∃ run, FlowTool.validate .mixed [.ofText "plain.json", .ofText "locked.json"] = .ok run) ∧
    (∃ err, err.isReported = false ∧ FlowTool.validate .mixed
      [⟨"", [String.ofList (List.replicate 300 'a')]⟩, .ofText "plain.json"] = .error err) ∧
    loadFile .mixed "missing" (.ofText "missing") = .error (.notFound "missing") ∧
    (∃ fault, Yaml.tokens "\"\\U00110000\"" = .error fault ∧ fault.IsCutting) ∧
    (Json.Failure.AtNumeral (List.replicate 4301 '1') ⟨.tooManyDigits 4301, 0⟩) ∧
    LoadError.Leaks (@loadJson (.cramped 900) "" (String.ofList (List.replicate 1000 '['))) := by
  obtain ⟨-, -, -, -, -, -, -, hall, -⟩ := leaks_exactly "" "" "" .null .empty .mixed
    (.ofText "") (.ofText "") [.ofText "plain.json", .ofText "locked.json"]
  obtain ⟨-, -, -, hjson, -, -, -, -, hstop, -⟩ := leaks_exactly ""
    (String.ofList (List.replicate 4301 '1')) "mixed.json" .null .empty .mixed
    (.ofText "mixed.json") (.ofText "") [.ofText "mixed.json", .ofText "plain.json"]
  obtain ⟨-, -, -, -, -, hmissing, hyaml, -⟩ := leaks_exactly "" "" "missing" .null
    "\"\\U00110000\"".toUTF8 .mixed (.ofText "missing") (.ofText "") []
  obtain ⟨-, -, -, -, -, -, -, -, hbarred, -⟩ := leaks_exactly "" "" "" .null .empty .mixed
    ⟨"", [String.ofList (List.replicate 300 'a')]⟩ (.ofText "")
    [⟨"", [String.ofList (List.replicate 300 'a')]⟩, .ofText "plain.json"]
  obtain ⟨-, -, hdeep, -⟩ := @leaks_exactly (.cramped 900) ""
    (String.ofList (List.replicate 1000 '[')) "" .null .empty .mixed (.ofText "") (.ofText "") []
  refine ⟨?_, ?_, ?_, hmissing (by rfl), ?_, ?_, ?_⟩
  · obtain ⟨err, hreported, -, hstops⟩ := hstop [] _ rfl nofun (.inr spoiledAt_mixed)
    exact ⟨err, hreported, hstops⟩
  · obtain ⟨run, hrun, -⟩ := hall (by simp)
      (by simpa using ⟨FlowTool.not_stoppedAt_plain, FlowTool.not_stoppedAt_locked⟩)
    exact ⟨run, hrun⟩
  · have hlength : 255 < (String.ofList (List.replicate 300 'a')).length := by
      rw [String.length_ofList, List.length_replicate]
      decide
    have hlong := FileTree.look_mixed_of_long hlength
    obtain ⟨err, hreported, -, hstops⟩ := hbarred [] _ rfl nofun (.inl ⟨_, hlong⟩)
    exact ⟨err, hreported, hstops⟩
  · have htext : textOf? "\"\\U00110000\"".toUTF8 = some "\"\\U00110000\"" := by decide +kernel
    have hread : Yaml.read "\"\\U00110000\"" = .error (.noCharacter 0x110000) := by rfl
    have hblock : Libraries.standard.block "\"\\U00110000\"".toUTF8 =
        .error (.noCharacter 0x110000) := (Yaml.readOctets_of_text htext).trans hread
    have hclosed (fault : Yaml.Fault) (h : Yaml.read "\"\\U00110000\"" = .error fault) :
        fault.isOpen = false := by
      cases hread.symm.trans h
      rfl
    rcases hyaml _ _ htext hclosed hblock rfl with ⟨why, hwhy⟩ | hcut | ⟨ts, _, _, _, hcut, -⟩
    · cases hwhy
    · exact ⟨_, hcut⟩
    · cases hcut.symm.trans (show _ = Except.error (Yaml.Fault.noCharacter 0x110000) from rfl)
  · have hlong : Number.digitLimit < (List.replicate 4301 '1').length := by
      rw [List.length_replicate]
      decide
    have hdigits (c : Char) (hc : c ∈ List.replicate 4301 '1') : c.isDigit = true := by
      rw [List.eq_of_mem_replicate hc]
      rfl
    have hread := Json.read_digits hdigits (by decide) hlong
    rcases hjson _ hread rfl with ⟨why, hwhy⟩ | hnumeral
    · cases hwhy
    · rw [String.toList_ofList, List.length_cons, List.length_replicate] at hnumeral
      exact hnumeral
  · refine hdeep.2 (.inl ⟨⟨.raised "maximum recursion depth exceeded", 0⟩, if_pos ?_, rfl⟩)
    rw [String.toList_ofList, List.count_replicate_self]
    decide

end UssdFlows
