import UssdFlows.Proofs.Engine.Words
import UssdFlows.Proofs.Service.Deeds
import UssdFlows.Proofs.Service.Trails

/-!
# What the status variables of a session say

The variables of a session are written when it leaves a node, or is completed there, and
at no other time (`Phase.Goes.marks`).  What is stored then is what the node has captured,
which for an action node is the last result that its action has come to
(`Phase.Goes.knows`).  The results that the actions of a session come to are noted during
a run (`Service.heard`), as the nodes are that it has been at.

So at every time a variable that only actions write holds the word of the last node left
that has one for it (`Service.Voiced`).  For the status variable of an action node that is
how its own action has ended, unless the result of an action at another node, left later,
has stored something under that very name (`Service.statuses_told`).
-/

namespace UssdFlows

open EngineM

variable {L L' : Ledger} {others : String → Prop} {e e' e₁ : Engine} {id : String}
  {s s' : Session} {f : Flow} {trail : List String} {results new : List (String × ActionResult)}

/-! ## Sessions -/

namespace Session

/-- The nodes that a session has left, or has been completed at. -/
def left (s : Session) (trail : List String) : List String :=
  if s.status = .completed then trail else trail.dropLast

/-- The variables of a session that only actions write hold the last words of the nodes
that it has left, and each action at one of them has come to something. -/
structure Voices (s : Session) (f : Flow) (trail : List String)
    (results : List (String × ActionResult)) : Prop where
  acted : ∀ n ∈ f.nodes.items, n.isAction = true → n.id ∈ s.left trail →
    resultAt? results n.id ≠ none
  words : ∀ name, f.Spares name → s.value? name = lastWord? results name (s.left trail)

theorem left_of_isActive (h : s.isActive = true) (trail : List String) :
    s.left trail = trail.dropLast := by
  rw [isActive, beq_iff_eq] at h
  rw [left, h]
  exact if_neg SessionStatus.noConfusion

theorem left_congr (h : s'.status = .completed ↔ s.status = .completed) (trail : List String) :
    s'.left trail = s.left trail := by
  by_cases hs : s.status = .completed
  · rw [left, left, if_pos hs, if_pos (h.2 hs)]
  · rw [left, left, if_neg hs, if_neg fun hs' => hs (h.1 hs')]

namespace Voices

/-- The session as it is when nothing is stored in it and it is not completed. -/
theorem keeps (h : s.Voices f trail results) (hbindings : s'.bindings = s.bindings)
    (hstatus : s'.status = .completed ↔ s.status = .completed) : s'.Voices f trail results := by
  refine ⟨fun n hn ha hleft => h.acted n hn ha (left_congr hstatus trail ▸ hleft),
    fun name hname => ?_⟩
  rw [left_congr hstatus, value?, hbindings]
  exact h.words name hname

/-- What an action comes to at a node that the session has not left says nothing yet. -/
theorem hears (h : s.Voices f trail results) (hnew : ∀ x ∈ new, x.1 ∉ s.left trail) :
    s.Voices f trail (results ++ new) := by
  refine ⟨fun n hn ha hleft => ?_, fun name hname => ?_⟩
  · rw [resultAt?_append_of_ne fun x hx hxn => hnew x hx (hxn ▸ hleft)]
    exact h.acted n hn ha hleft
  · rw [lastWord?_heard_append hnew]
    exact h.words name hname

/-- A node is left, and what it has captured is stored. -/
theorem leaves (h : s.Voices f trail results) {n : Node} {captured : Dict String}
    {trail' : List String} (hn : f.node? n.id = some n)
    (hgives : n.Gives (resultAt? results n.id) captured)
    (hplain : n.isAction = false → resultAt? results n.id = none)
    (hbindings : s'.bindings = s.bindings.putAll captured.items)
    (hleft : s'.left trail' = s.left trail ++ [n.id]) : s'.Voices f trail' results := by
  have hmem : n ∈ f.nodes.items := KeyedList.mem_of_find? hn
  refine ⟨fun m hm ha hleft' => ?_, fun name hname => ?_⟩
  · rw [hleft, List.mem_append, List.mem_singleton] at hleft'
    rcases hleft' with hleft' | hid
    · exact h.acted m hm ha hleft'
    · have hfound : f.node? m.id = some m := KeyedList.find?_of_mem hm
      obtain rfl : m = n := by
        rw [hid, hn, Option.some.injEq] at hfound
        exact hfound.symm
      obtain ⟨r, hr, -⟩ := hgives.acted ha
      rw [hr]
      exact Option.some_ne_none r
  · have hword : (captured.find? name).map Prod.snd = wordAt? results name n.id := by
      cases ha : n.isAction with
      | true =>
          obtain ⟨r, hr, rfl⟩ := hgives.acted ha
          rw [wordAt?, hr]
          rfl
      | false =>
          rw [hgives.find?_eq_none hname hmem ha, wordAt?, hplain ha]
          rfl
    rw [value?_putAll hbindings, hleft, lastWord?_append, lastWord?_singleton, hword,
      h.words name hname]

end Voices

/-- A session that has been nowhere but at the start has its defaults. -/
theorem voices_opened (hbindings : s.bindings = f.defaults) (h : s.isActive = true)
    (node : String) (results : List (String × ActionResult)) : s.Voices f [node] results := by
  have hnone : s.left [node] = [] := left_of_isActive h _
  refine ⟨fun n _ _ hleft => ?_, fun name hname => ?_⟩
  · rw [hnone] at hleft
    cases hleft
  · rw [hnone, value?, hbindings, hname.defaults]
    rfl

end Session

/-! ## What operations hear -/

namespace Phase

variable {v : Visitor} {p p' : Phase} {purpose : Purpose} {lock n : Nat} {σ : Stage} {t t' : Turn}
  {r : Except EngineError Turn} {x : String × ActionResult}

/-- What the action of a node has come to when an operation goes on to interpret it: the
answer of the executor, or that there is none. -/
def heard (id : String) (e : Engine) : Phase → List (String × ActionResult)
  | playing _ _ (_ + 1) .dispatch t =>
    if t.sessionId = id ∧ t.node.isAction = true ∧ e.executor.isNone = true then
      [(t.node.id, Turn.actionResult e none)]
    else []
  | acting _ _ _ pending t =>
    if t.sessionId = id ∧ t.node.isAction = true then
      [(t.node.id, Turn.actionResult e (some pending))]
    else []
  | _ => []

/-- Whoever hears what an action has come to serves an active session that rests at the
node of the action. -/
theorem placed_of_mem_heard {trail : String → List String} {answers : String → Nat}
    (hx : x ∈ p.heard id e) (hf : p.Fits L e) (hw : p.Walks trail answers) (ha : p.Attends e) :
    p.about? = some id ∧ IsIssued e.nextSession id ∧ e.hasActive id = true ∧
      (trail id).getLast? = some x.1 ∧ (L.pin id).WellFormed ∧
      ∃ n, (L.pin id).node? x.1 = some n ∧ n.isAction = true := by
  have hturn : ∀ {t : Turn}, t.Fits L e.nextSession .dispatch → t.node.isAction = true →
      t.sessionId = id → x.1 = t.node.id → IsIssued e.nextSession id ∧ (L.pin id).WellFormed ∧
        ∃ n, (L.pin id).node? x.1 = some n ∧ n.isAction = true := by
    rintro t hfits haction rfl hnode
    rw [hnode, ← hfits.flow]
    exact ⟨hfits.issued, hfits.wellFormed, t.node, hfits.node, haction⟩
  cases p with
  | playing purpose lock left σ t =>
      cases left with
      | zero => cases σ <;> cases hx
      | succ left =>
          cases σ with
          | dispatch =>
              rw [heard] at hx
              split at hx
              · rename_i hcond
                obtain ⟨hid, haction, -⟩ := hcond
                obtain rfl := List.mem_singleton.1 hx
                obtain ⟨hissued, hwf, hnode⟩ := hturn hf.1 haction hid rfl
                subst hid
                exact ⟨rfl, hissued, ha, hw.1, hwf, hnode⟩
              · cases hx
          | _ => cases hx
  | acting purpose lock left pending t =>
      rw [heard] at hx
      split at hx
      · rename_i hcond
        obtain ⟨hid, haction⟩ := hcond
        obtain rfl := List.mem_singleton.1 hx
        obtain ⟨hissued, hwf, hnode⟩ := hturn hf.1 haction hid rfl
        subst hid
        exact ⟨rfl, hissued, ha, hw.1, hwf, hnode⟩
      · cases hx
  | _ => cases hx

theorem heard_eq_nil (h : p.about? ≠ some id) (e : Engine) : p.heard id e = [] := by
  cases p with
  | playing purpose lock left σ t =>
      have hid : t.sessionId ≠ id := fun hid => h (congrArg some hid)
      cases left with
      | zero => cases σ <;> rfl
      | succ left =>
          cases σ with
          | dispatch => exact if_neg fun hc => hid hc.1
          | _ => rfl
  | acting purpose lock left pending t => exact if_neg fun hc => h (congrArg some hc.1)
  | _ => rfl

/-- What an operation in progress knows of its session: it is about to be stored with the
defaults, or the turn is about to leave a node with what that has captured. -/
def Knows (results : String → List (String × ActionResult)) : Phase → Prop
  | settling _ _ s t _ => s.bindings = t.flow.defaults
  | playing _ _ _ σ t => σ = .advance ∨ σ = .complete → ∃ o, t.outcome = some o ∧
    t.node.Gives (resultAt? (results t.sessionId) t.node.id) o.captured
  | _ => True

variable {results results' : String → List (String × ActionResult)}

theorem Knows.congr (h : p.Knows results)
    (hsame : ∀ id, p.about? = some id → results' id = results id) : p.Knows results' := by
  cases p with
  | settling c callerLock s t lock => exact h
  | playing purpose lock left σ t =>
      rw [Knows, hsame _ rfl]
      exact h
  | _ => trivial

/-- Only an interpretation leads to leaving a node. -/
theorem dispatch_of_next? {σ' : Stage} (h : t.next? σ = some σ')
    (hσ' : σ' = .advance ∨ σ' = .complete) :
    σ = .dispatch ∧ ∀ o message, t.outcome = some o → o.move ≠ .stay message := by
  cases σ with
  | dispatch =>
      refine ⟨rfl, fun o message ho hmove => ?_⟩
      rw [Turn.next?, Turn.afterDispatch, ho, Option.some.injEq] at h
      dsimp only at h
      rw [hmove] at h
      subst h
      rcases hσ' with h | h <;> cases h
  | recordInput =>
      cases h
      rcases hσ' with h | h <;> cases h
  | advance =>
      rw [Turn.next?, Turn.afterAdvance, Option.some.injEq] at h
      subst h
      split at hσ' <;> rcases hσ' with h | h <;> cases h
  | _ => cases h

/-- What comes of an interpretation is what the node has captured, by what its action
has come to. -/
theorem Plays.gives (hp : Plays e p purpose lock n .dispatch t (.ok t') e')
    (hr : e.replaced = []) (results : List (String × ActionResult))
    (hmove : ∀ o message, t'.outcome = some o → o.move ≠ .stay message) :
    ∃ o, t'.outcome = some o ∧
      t.node.Gives (resultAt? (results ++ p.heard t.sessionId e) t.node.id) o.captured := by
  -- an action has come to something, and for the other nodes no result makes a difference
  have hends : ∀ {bindings : Dict String} {r : ActionResult} {o : Outcome},
      t'.outcome = some o → t.node.interpret bindings t.givenInput r = .ok o →
      (t.node.isAction = true → p.heard t.sessionId e = [(t.node.id, r)]) →
      ∃ o, t'.outcome = some o ∧
        t.node.Gives (resultAt? (results ++ p.heard t.sessionId e) t.node.id) o.captured := by
    intro bindings r o ho hinterpret hheard
    have hgives := Node.gives_of_interpret hinterpret fun message => hmove o message ho
    refine ⟨o, ho, fun ha => ?_, hgives.plain⟩
    rw [hheard ha, resultAt?_concat_self]
    exact hgives.acted ha
  -- the turn that has heard a result
  have hhears : ∀ {e₁ : Engine} {pending : Option Turn.Pending}, e₁.replaced = [] →
      (t.hear pending).start e₁ = (.ok t', e') →
      ∃ s o, e₁.store.get? t.sessionId = some s ∧ t'.outcome = some o ∧
        t.node.interpret s.bindings t.givenInput (Turn.actionResult e₁ pending) = .ok o := by
    intro e₁ pending hr₁ hstart
    cases hget : e₁.store.get? t.sessionId with
    | none =>
        rw [Turn.start_hear_of_missing hget] at hstart
        cases hstart
    | some s =>
        rw [Turn.start_hear hget hr₁] at hstart
        dsimp only at hstart
        cases ho : t.node.interpret s.bindings t.givenInput (Turn.actionResult e₁ pending) with
        | error err =>
            rw [ho] at hstart
            cases hstart
        | ok o =>
            rw [ho] at hstart
            cases hstart
            exact ⟨s, o, rfl, rfl, ho⟩
  cases hp with
  | stage hσ _ => exact absurd rfl hσ
  | hears hask hhear =>
      rcases Turn.start_ask_cases hr t with ⟨-, herr⟩ | ⟨pending, e₂, hok, hsame, hstore, -⟩
      · cases hask.symm.trans herr
      · cases hask.symm.trans hok
        obtain ⟨s, o, hget, ho, hinterpret⟩ := hhears (hsame.replaced.trans hr) hhear
        refine hends ho hinterpret fun ha => if_pos ⟨rfl, ha, ?_⟩
        rw [hstore] at hget
        rw [Turn.start_ask_of_isAction hget hr ha] at hask
        cases hx : e.executor with
        | none => rfl
        | some x =>
            rw [hx] at hask
            cases hask
  | @answered _ _ _ pending _ _ _ hhear =>
      obtain ⟨s, o, -, ho, hinterpret⟩ := hhears hr hhear
      exact hends ho hinterpret fun ha => if_pos ⟨rfl, ha⟩

/-- No turn begins by leaving a node. -/
theorem knows_entry (purpose : Purpose) (lock n : Nat) (t : Turn)
    (results : String → List (String × ActionResult)) :
    (playing purpose lock n t.entry t).Knows results := by
  intro hentry
  rw [Turn.entry] at hentry
  split at hentry
  · rcases hentry with h | h <;> cases h
  · split at hentry <;> rcases hentry with h | h <;> cases h

/-- Going on with an operation, it knows what comes of the action of its node. -/
theorem Goes.knows (hg : Goes v e p p' e') (hr : e.replaced = [])
    (hresults : ∀ id, results' id = results id ++ p.heard id e) : p'.Knows results' := by
  cases hg with
  | opens hopen =>
      obtain ⟨-, -, expiry, n, rfl, -, rfl⟩ := openSession_opened hopen
      rfl
  | stores hstore => exact knows_entry _ _ _ _ _
  | admits hadmission => exact knows_entry _ _ _ _ _
  | continues hplays hn =>
      intro hσ'
      obtain ⟨rfl, hmove⟩ := dispatch_of_next? hn hσ'
      have hcontinues := hplays.continues
      rw [hcontinues.sessionId, hcontinues.node Stage.noConfusion, hresults]
      exact hplays.gives hr _ hmove
  | _ => trivial

/-! ## What is stored in sessions -/

/-- Nothing is stored in the sessions, and none is completed. -/
def KeepsWords (e e' : Engine) : Prop :=
  ∀ id s', e'.store.get? id = some s' → ∃ s, e.store.get? id = some s ∧
    s'.bindings = s.bindings ∧ (s'.status = .completed ↔ s.status = .completed)

theorem keepsWords_of_store (h : e'.store = e.store) : KeepsWords e e' :=
  fun _ s' hget => ⟨s', h ▸ hget, rfl, Iff.rfl⟩

theorem keepsWords_keep (hget : e.store.get? id = some s) (hstore : e'.store = (e.keep s').store)
    (hid : s'.id = s.id) (hbindings : s'.bindings = s.bindings)
    (hstatus : s'.status = .completed ↔ s.status = .completed) : KeepsWords e e' := by
  intro j s'' hget'
  rw [hstore, Engine.get?_keep] at hget'
  split at hget'
  · rename_i hj
    cases hget'
    refine ⟨s, ?_, hbindings, hstatus⟩
    rw [← hj, hid, KeyedList.key_of_find? hget]
    exact hget
  · exact ⟨s'', hget', rfl, Iff.rfl⟩

/-- A session that was active is over now, but not completed. -/
theorem keepsWords_over (hget : e.store.get? id = some s) (ha : s.isActive = true)
    (hstore : e'.store = (e.keep s').store) (hid : s'.id = s.id)
    (hbindings : s'.bindings = s.bindings) (hstatus : s'.status ≠ .completed) :
    KeepsWords e e' := by
  refine keepsWords_keep hget hstore hid hbindings (iff_of_false hstatus fun hs => ?_)
  rw [Session.isActive, hs] at ha
  cases ha

/-- What an operation that goes on does to the variables: nothing is stored and no session
is completed, or one is stored that is new, or one leaves the node of its turn, be it that
it moves or is completed, and what the node has captured is stored. -/
inductive Marks (e : Engine) (p : Phase) (e' : Engine) : Prop where
  | keeps (hnone : ∀ id, p.visited id e = []) (hkeeps : KeepsWords e e')
  | opens {c : Caller} {callerLock lock : Nat} {s : Session} {t : Turn}
      (hp : p = .settling c callerLock s t lock)
      (hvisited : p.visited s.id e = s.currentNode.toList)
      (hown : e'.store.get? s.id = some s)
      (hothers : ∀ j, j ≠ s.id → e'.store.get? j = e.store.get? j)
  | leaves {purpose : Purpose} {lock left : Nat} {σ : Stage} {t : Turn} {s s' : Session}
      {o : Outcome} (hp : p = .playing purpose lock left σ t) (hσ : σ = .advance ∨ σ = .complete)
      (ho : t.outcome = some o) (hget : e.store.get? t.sessionId = some s)
      (ha : s.isActive = true) (hown : e'.store.get? t.sessionId = some s')
      (hbindings : s'.bindings = s.bindings.putAll o.captured.items)
      (hleft : ∀ trail, s'.left (trail ++ p.visited t.sessionId e) = trail)
      (hothers : ∀ j, j ≠ t.sessionId → e'.store.get? j = e.store.get? j)

theorem KeepsWords.of_store (h : KeepsWords e e₁) (hstore : e'.store = e₁.store) :
    KeepsWords e e' := fun id s' hget => h id s' (hstore ▸ hget)

theorem Marks.of_store (h : Marks e p e₁) (hstore : e'.store = e₁.store) : Marks e p e' := by
  cases h with
  | keeps hnone hkeeps => exact .keeps hnone (hkeeps.of_store hstore)
  | opens hp hvisited hown hothers =>
      exact .opens hp hvisited (hstore ▸ hown) fun j hj => hstore ▸ hothers j hj
  | leaves hp hσ ho hget ha hown hbindings hleft hothers =>
      exact .leaves hp hσ ho hget ha (hstore ▸ hown) hbindings hleft
        fun j hj => hstore ▸ hothers j hj

theorem marks_of_store (hnone : ∀ id, p.visited id e = []) (h : e'.store = e.store) :
    Marks e p e' := .keeps hnone (keepsWords_of_store h)

/-- A move leaves the node that the turn is at. -/
theorem Plays.marks_advance (hp : Plays e p purpose lock n .advance t r e')
    (hs : e.Sound L (p.Moving others)) (hf : p.Fits L e) (ha : p.Attends e) :
    Marks e p e' := by
  have hfits := (hp.leaves hs hf).1
  have hothers := hp.touches.1.others
  obtain ⟨s, hget, hactive⟩ := Engine.exists_of_hasActive (hp.attends ha)
  obtain ⟨rfl, hstart, -⟩ := hp.advances hs hf
  obtain ⟨o, target, ho, htarget, hmem⟩ := hfits.leads rfl
  obtain ⟨m, hm, rfl, -, -⟩ := hfits.target hmem
  have hvisited := Turn.start_advance hget ho htarget hm
  rw [hvisited] at hstart
  cases hstart
  refine .leaves rfl (Or.inl rfl) ho hget hactive
    (Engine.get?_moved (KeyedList.key_of_find? hget) o) rfl (fun trail => ?_) hothers
  have hmoved : ((s.movedTo m e.now).capture o.captured).isActive = true := hactive
  rw [Session.left_of_isActive hmoved, visited_of_advanced hvisited, List.dropLast_concat]

/-- Completing a session leaves the node that the turn is at. -/
theorem Plays.marks_complete (hp : Plays e p purpose lock n .complete t r e')
    (hs : e.Sound L (p.Moving others)) (hf : p.Fits L e) (ha : p.Attends e) :
    Marks e p e' := by
  obtain ⟨o, ho⟩ := (hp.leaves hs hf).1.ends rfl
  have hothers := hp.touches.1.others
  have hvisited := hp.visited_eq_nil Stage.noConfusion
  obtain ⟨s, hget, hactive⟩ := Engine.exists_of_hasActive (hp.attends ha)
  cases hp with
  | exhausted => exact absurd (t.cost_pos .complete) (Nat.not_lt.2 hf.2)
  | stage hσ hstart =>
      rw [Turn.perform, Turn.start_complete hget ho hactive] at hstart
      cases hstart
      have hid : s.id = t.sessionId := KeyedList.key_of_find? hget
      refine .leaves rfl (Or.inr rfl) ho hget hactive (Engine.get?_finished hid) rfl
        (fun trail => ?_) hothers
      rw [hvisited, List.append_nil]
      exact if_pos rfl

/-- A stage that leaves no node stores nothing. -/
theorem Plays.keepsWords (hp : Plays e p purpose lock n σ t r e') (ha : p.Attends e)
    (hr : e.replaced = []) (hadvance : σ ≠ .advance) (hcomplete : σ ≠ .complete) :
    KeepsWords e e' := by
  obtain ⟨s, hget, -⟩ := Engine.exists_of_hasActive (hp.attends ha)
  have hask : ∀ {pending : Except EngineError (Option Turn.Pending)} {e₁ : Engine},
      t.ask.start e = (pending, e₁) → e₁.store = e.store ∧ e₁.replaced = [] := by
    intro pending e₁ hask
    rcases Turn.start_ask_cases hr t with ⟨hnone, -⟩ | ⟨_, e₂, hok, hsame, hstore, -⟩
    · cases hget.symm.trans hnone
    · cases hask.symm.trans hok
      exact ⟨hstore, hsame.replaced.trans hr⟩
  cases hp with
  | exhausted => exact keepsWords_of_store rfl
  | stage hσ hstart =>
      cases σ with
      | recordInput =>
          rw [Turn.perform, Turn.start_recordInput hget] at hstart
          cases hs : s.received? (t.input.getD "") e.now e.settings.sessionTimeout with
          | none =>
              rw [hs] at hstart
              cases hstart
              exact keepsWords_keep hget rfl rfl rfl Iff.rfl
          | some s' =>
              rw [hs] at hstart
              cases hstart
              obtain ⟨expiry, -, rfl⟩ := Session.received?_eq_some hs
              exact keepsWords_keep hget (Engine.store_received ..) rfl rfl Iff.rfl
      | dispatch => exact absurd rfl hσ
      | advance => exact absurd rfl hadvance
      | complete => exact absurd rfl hcomplete
      | reprompt =>
          rw [Turn.perform, Turn.start_reprompt hget] at hstart
          cases hstart
          exact keepsWords_of_store rfl
      | respond =>
          rw [Turn.perform, Turn.start_respond hget] at hstart
          cases hstart
          exact keepsWords_of_store rfl
  | unasked h => exact keepsWords_of_store (hask h).1
  | hears h hhear =>
      have hcalm := t.calm_hear none (hask h).2
      rw [hhear] at hcalm
      exact keepsWords_of_store (hcalm.alike.store.trans (hask h).1)
  | @answered _ _ _ pending _ _ _ hhear =>
      have hcalm := t.calm_hear (some pending) hr
      rw [hhear] at hcalm
      exact keepsWords_of_store hcalm.alike.store

theorem Plays.marks (hp : Plays e p purpose lock n σ t r e') (hs : e.Sound L (p.Moving others))
    (hf : p.Fits L e) (ha : p.Attends e) : Marks e p e' := by
  by_cases hadvance : σ = .advance
  · subst hadvance
    exact hp.marks_advance hs hf ha
  · by_cases hcomplete : σ = .complete
    · subst hcomplete
      exact hp.marks_complete hs hf ha
    · exact .keeps (hp.visited_eq_nil hadvance) (hp.keepsWords ha hs.replaced hadvance hcomplete)

/-- **Marks.**  Every operation that goes on stores something only by leaving a node. -/
theorem Goes.marks (hg : Goes v e p p' e') (hs : e.Sound L (p.Moving others)) (hf : p.Fits L e)
    (ha : p.Attends e) : Marks e p e' := by
  cases hg with
  | unserved _ => exact marks_of_store (fun _ => rfl) rfl
  | calls _ => exact marks_of_store (fun _ => rfl) rfl
  | asks _ => exact marks_of_store (fun _ => rfl) rfl
  | strays => exact marks_of_store (fun _ => rfl) rfl
  | opens hopen =>
      obtain ⟨-, rfl, -⟩ := openSession_opened hopen
      exact marks_of_store (fun _ => rfl) rfl
  | resumes hopen _ hc =>
      rcases openSession_cases hopen with rfl | rfl
      · exact marks_of_store (fun _ => rfl) hc.alike.store
      · exact marks_of_store (fun _ => rfl) hc.alike.store
  | @stores c callerLock s t lock _ hstore =>
      rcases storeSession_cases hstore with ⟨-, rfl, -⟩ | ⟨-, err, herr⟩
      · refine .opens rfl (visited_of_stored hstore) ?_ fun j hj => ?_
        · rw [Engine.get?_opened, if_pos rfl]
        · rw [Engine.get?_opened, if_neg (Ne.symm hj)]
      · cases herr
  | @drops c callerLock s t lock err e₁ _ hstore hc =>
      rcases storeSession_cases hstore with ⟨herr, -⟩ | ⟨rfl, -⟩
      · cases herr
      · refine marks_of_store (fun id => ?_) hc.alike.store
        show (if s.id = id then _ else _) = _
        rw [hstore]
        split <;> rfl
  | admits hadmission =>
      obtain ⟨rfl, -⟩ := admission_admitted hadmission
      exact marks_of_store (fun _ => rfl) rfl
  | refuses hadmission hrefusal hc =>
      rcases admission_cases hadmission with ⟨t, rfl, -⟩ | ⟨rfl, -⟩ | ⟨s, -, hget, hactive, -, rfl⟩
      · cases hrefusal
      · exact marks_of_store (fun _ => rfl) hc.alike.store
      · exact .keeps (fun _ => rfl)
          (keepsWords_over hget hactive hc.alike.store rfl rfl SessionStatus.noConfusion)
  | ends hend hc =>
      rcases endSession_cases hend with ⟨rfl, -⟩ | ⟨s, hget, hactive, -, rfl⟩
      · exact marks_of_store (fun _ => rfl) hc.alike.store
      · exact .keeps (fun _ => rfl)
          (keepsWords_over hget hactive hc.alike.store rfl rfl SessionStatus.noConfusion)
  | lapses hlapse hc =>
      rcases lapseIfDue_cases hlapse with ⟨rfl, -⟩ | ⟨s, hget, hactive, -, -, rfl⟩
      · exact marks_of_store (fun _ => rfl) hc.alike.store
      · exact .keeps (fun _ => rfl)
          (keepsWords_over hget hactive hc.alike.store rfl rfl SessionStatus.noConfusion)
  | @waits purpose lock left t pending _ hask =>
      refine marks_of_store (fun _ => rfl) ?_
      rcases Turn.start_ask_cases hs.replaced t with ⟨-, herr⟩ | ⟨_, _, hok, -, hstore, -⟩
      · cases hask.symm.trans herr
      · cases hask.symm.trans hok
        exact hstore
  | continues hplays _ => exact hplays.marks hs hf ha
  | concludes hplays _ hc _ => exact (hplays.marks hs hf ha).of_store hc.alike.store

end Phase

/-! ## What services hear -/

namespace Service

/-- What the actions of a session have come to during a run, with the nodes that they
belong to. -/
def heard (w : Service) (id : String) (ms : List Move) : List (String × ActionResult) :=
  w.log (fun _ t e => t.phase.heard id e) ms

variable {w : Service} {trail trail' : String → List String}
  {results results' : String → List (String × ActionResult)}

/-- The trails of all sessions are walks, every operation knows what it is about to store,
and the variables of every stored session hold the last words of the nodes it has left. -/
structure Voiced (L : Ledger) (w : Service) (trail : String → List String)
    (results : String → List (String × ActionResult)) : Prop where
  trails : w.Trails L trail
  orderly : w.Orderly
  /-- Only action nodes have come to something. -/
  ofActions : ∀ id, ∀ x ∈ results id, IsIssued w.engine.nextSession id ∧
    ∃ n, (L.pin id).node? x.1 = some n ∧ n.isAction = true
  knows : ∀ (i : Nat) (t : Task), w.tasks[i]? = some t → t.phase.Knows results
  voices : ∀ id s, w.engine.store.get? id = some s →
    s.Voices (L.pin id) (trail id) (results id)

namespace Voiced

/-- A node that has no action has come to nothing. -/
theorem resultAt?_of_plain (h : w.Voiced L trail results) {n : Node}
    (hn : (L.pin id).node? n.id = some n) (ha : n.isAction = false) :
    resultAt? (results id) n.id = none := by
  refine resultAt?_eq_none fun x hx hxn => ?_
  obtain ⟨-, m, hm, haction⟩ := h.ofActions id x hx
  rw [hxn, hn, Option.some.injEq] at hm
  rw [← hm, ha] at haction
  cases haction

/-- A session that is stored is pinned to the same flow later on. -/
theorem pin_eq (h : w.Voiced L trail results) (hL : L.Agrees w.engine.nextSession L')
    (hget : w.engine.store.get? id = some s) : L'.pin id = L.pin id := by
  have hid : s.id = id := KeyedList.key_of_find? hget
  exact hid ▸ (hL s.id (h.trails.sound.engine.placed id s hget).issued).1

/-- What is heard in a turn belongs to a node that its session has not left. -/
theorem not_mem_left (h : w.Voiced L trail results) {i : Nat} {t : Task}
    (ht : w.tasks[i]? = some t) (hget : w.engine.store.get? id = some s) :
    ∀ x ∈ t.phase.heard id w.engine, x.1 ∉ s.left (trail id) := by
  intro x hx
  obtain ⟨-, -, hactive, hlast, hwf, -⟩ := Phase.placed_of_mem_heard hx
    (h.trails.sound.tasks t (List.mem_of_getElem? ht)) (h.trails.walks i t ht)
    (h.orderly.attends i t ht)
  obtain ⟨s', hget', ha⟩ := Engine.exists_of_hasActive hactive
  cases hget.symm.trans hget'
  have hnodup := (hwf.acyclic.walk (h.trails.traces.chain id)).1
  rw [← List.dropLast_append_getLast? x.1 hlast] at hnodup
  rw [Session.left_of_isActive ha]
  exact fun hmem => (List.nodup_append.1 hnodup).2.2 _ hmem _ (List.mem_singleton_self _) rfl

/-- What an operation that goes on makes of the session that it is about. -/
theorem voices_set (h : w.Voiced L trail results) {i : Nat} {t : Task} {p : Phase}
    (ht : w.tasks[i]? = some t) (hg : t.phase.Goes t.visitor w.engine p e')
    (hL : L.Agrees w.engine.nextSession L')
    (htrail : ∀ id, trail' id = trail id ++ t.phase.visited id w.engine)
    (hresults : ∀ id, results' id = results id ++ t.phase.heard id w.engine)
    (hget' : e'.store.get? id = some s') : s'.Voices (L'.pin id) (trail' id) (results' id) := by
  have hmoving : w.engine.Sound L (t.phase.Moving (w.MovingBut i)) :=
    h.trails.sound.engine.mono fun id => (moving_iff ht id).1
  have hfits := h.trails.sound.tasks t (List.mem_of_getElem? ht)
  have hwalks := h.trails.walks i t ht
  have hknows := h.knows i t ht
  -- sessions that the operation is not about
  have hothers : t.phase.about? ≠ some id → e'.store.get? id = w.engine.store.get? id →
      s'.Voices (L'.pin id) (trail' id) (results' id) := by
    intro habout hsame
    rw [hsame] at hget'
    rw [htrail, hresults, Phase.visited_eq_nil habout, Phase.heard_eq_nil habout,
      List.append_nil, List.append_nil, h.pin_eq hL hget']
    exact h.voices id s' hget'
  cases hg.marks hmoving hfits (h.orderly.attends i t ht) with
  | keeps hnone hkeeps =>
      obtain ⟨s, hget, hbindings, hstatus⟩ := hkeeps id s' hget'
      rw [htrail, hresults, hnone, List.append_nil, h.pin_eq hL hget]
      exact ((h.voices id s hget).hears (h.not_mem_left ht hget)).keeps hbindings hstatus
  | @opens c callerLock lock s u hp hvisited hown hrest =>
      rw [hp] at hfits hwalks hknows
      by_cases hid : id = s.id
      · subst hid
        cases hget'.symm.trans hown
        have hactive := h.orderly.attends i t ht
        rw [hp] at hactive
        rw [htrail, hvisited, hwalks.1, hwalks.2.1, (hL _ hfits.placed.issued).1]
        refine Session.voices_opened ?_ hactive.2 _ _
        rw [hknows, hfits.fits.flow, hfits.same]
      · exact hothers (hp ▸ fun habout => hid (Option.some.inj habout).symm) (hrest id hid)
  | @leaves purpose lock left σ u s s'' o hp hσ ho hget ha hown hbindings hleft hrest =>
      rw [hp] at hfits hwalks hknows
      by_cases hid : id = u.sessionId
      · subst hid
        cases hget'.symm.trans hown
        have hnone : t.phase.heard u.sessionId w.engine = [] := by
          rw [hp]
          cases left with
          | zero => cases σ <;> rfl
          | succ left => rcases hσ with rfl | rfl <;> rfl
        obtain ⟨o', ho', hgives⟩ := hknows hσ
        cases ho.symm.trans ho'
        have hnode : (L.pin u.sessionId).node? u.node.id = some u.node :=
          hfits.1.flow ▸ hfits.1.node
        rw [hresults, hnone, List.append_nil, h.pin_eq hL hget]
        refine (h.voices _ s hget).leaves hnode hgives (h.resultAt?_of_plain hnode) hbindings ?_
        rw [htrail, hleft, Session.left_of_isActive ha,
          List.dropLast_append_getLast? u.node.id hwalks.1]
      · exact hothers (hp ▸ fun habout => hid (Option.some.inj habout).symm) (hrest id hid)

/-- A move that no operation makes stores nothing in a session. -/
theorem of_tasks (h : w.Voiced L trail results) {w' : Service}
    (hL : L.Agrees w.engine.nextSession L') (hnext : w.engine.nextSession ≤ w'.engine.nextSession)
    (htrails : w'.Trails L' trail) (horderly : w'.Orderly)
    (htasks : ∀ (i : Nat) (t : Task), w'.tasks[i]? = some t → w.tasks[i]? = some t ∨
      ∃ call, t.phase = .ready call)
    (hstored : ∀ id s, w'.engine.store.get? id = some s → w.engine.store.get? id = some s) :
    w'.Voiced L' trail results where
  trails := htrails
  orderly := horderly
  ofActions := fun id x hx => by
    obtain ⟨hissued, hnode⟩ := h.ofActions id x hx
    exact ⟨hissued.mono hnext, (hL id hissued).1 ▸ hnode⟩
  knows := fun i t ht => by
    rcases htasks i t ht with ht | ⟨call, hp⟩
    · exact h.knows i t ht
    · rw [hp]
      trivial
  voices := fun id s hget => by
    rw [h.pin_eq hL (hstored id s hget)]
    exact h.voices id s (hstored id s hget)

/-- An operation goes on. -/
theorem set (h : w.Voiced L trail results) {i : Nat} {t : Task} {p : Phase}
    (ht : w.tasks[i]? = some t) (hcan : t.phase.canStep t.visitor w.engine = true)
    (hg : t.phase.Goes t.visitor w.engine p e') (hL : L.Agrees w.engine.nextSession L')
    (hnext : w.engine.nextSession ≤ e'.nextSession)
    (htrails : (⟨e', w.tasks.set i { t with phase := p }, w.published⟩ : Service).Trails L' trail')
    (horderly : (⟨e', w.tasks.set i { t with phase := p }, w.published⟩ : Service).Orderly)
    (htrail : ∀ id, trail' id = trail id ++ t.phase.visited id w.engine)
    (hresults : ∀ id, results' id = results id ++ t.phase.heard id w.engine) :
    (⟨e', w.tasks.set i { t with phase := p }, w.published⟩ : Service).Voiced L' trail'
      results' where
  trails := htrails
  orderly := horderly
  ofActions := fun id x hx => by
    have hx' : IsIssued w.engine.nextSession id ∧
        ∃ n, (L.pin id).node? x.1 = some n ∧ n.isAction = true := by
      rw [hresults] at hx
      rcases List.mem_append.1 hx with hx | hx
      · exact h.ofActions id x hx
      · obtain ⟨-, hissued, -, -, -, hnode⟩ := Phase.placed_of_mem_heard hx
          (h.trails.sound.tasks t (List.mem_of_getElem? ht)) (h.trails.walks i t ht)
          (h.orderly.attends i t ht)
        exact ⟨hissued, hnode⟩
    exact ⟨hx'.1.mono hnext, (hL id hx'.1).1 ▸ hx'.2⟩
  knows := fun j u hu => by
    rcases set_cases hu with ⟨rfl, rfl⟩ | ⟨hji, hu⟩
    · exact hg.knows h.orderly.plain hresults
    · refine (h.knows j u hu).congr fun id hid => ?_
      rw [hresults, Phase.heard_eq_nil fun hc => hji (h.trails.alone ht hcan hu hc hid),
        List.append_nil]
  voices := fun id s' hget' => h.voices_set ht hg hL htrail hresults hget'

/-- **Words.**  Every move keeps what the variables of the sessions say. -/
theorem make (h : w.Voiced L trail results) (m : Move) :
    ∃ L', L.Agrees w.engine.nextSession L' ∧
      w.engine.nextSession ≤ (w.make m).engine.nextSession ∧
      (w.make m).Voiced L' (fun id => trail id ++ noted (fun _ t e => t.phase.visited id e) w m)
        fun id => results id ++ noted (fun _ t e => t.phase.heard id e) w m := by
  obtain ⟨L', hL, hnext, htrails⟩ := h.trails.make m
  have horderly := h.orderly.make m
  refine ⟨L', hL, hnext, ?_⟩
  cases m with
  | turnClock now =>
      simp only [noted, List.append_nil] at htrails ⊢
      exact h.of_tasks hL hnext htrails horderly (fun _ _ ht => Or.inl ht) fun _ _ hget => hget
  | publish f =>
      simp only [noted, List.append_nil] at htrails ⊢
      refine h.of_tasks hL hnext htrails horderly (fun _ _ ht => Or.inl ht) fun id s hget => ?_
      have hstore : (w.make (.publish f)).engine.store = w.engine.store := store_publish f w.engine
      exact hstore ▸ hget
  | drop retention now =>
      simp only [noted, List.append_nil] at htrails ⊢
      refine h.of_tasks hL hnext htrails horderly (fun _ _ ht => Or.inl ht) fun id s hget => ?_
      obtain ⟨hmem, hid⟩ := KeyedList.find?_eq_some_iff.1 hget
      exact KeyedList.find?_eq_some_iff.2 ⟨(List.mem_filter.1 hmem).1, hid⟩
  | begin call =>
      simp only [noted, List.append_nil] at htrails ⊢
      refine h.of_tasks hL hnext htrails horderly (fun i t ht => ?_) fun _ _ hget => hget
      exact (begin_cases ht).imp_right fun hready => ⟨call, by rw [hready.2]⟩
  | proceed i =>
      rcases proceed_cases w i with ⟨hsame, hnote⟩ | ⟨t, p, e', ht, hcan, -, hg, hgoes, hnote⟩
      · have hmade : w.make (.proceed i) = w := hsame
        rw [hmade] at htrails horderly hnext ⊢
        simp only [hnote, List.append_nil] at htrails ⊢
        exact h.of_tasks hL hnext htrails horderly (fun _ _ ht => Or.inl ht) fun _ _ hget => hget
      · have hmade : w.make (.proceed i) =
            { w with engine := e', tasks := w.tasks.set i { t with phase := p } } := hgoes
        rw [hmade] at htrails horderly hnext ⊢
        exact h.set ht hcan hg hL hnext htrails horderly (fun id => by rw [hnote])
          fun id => by rw [hnote]

/-- Runs keep what the variables of the sessions say. -/
theorem after (h : w.Voiced L trail results) (ms : List Move) :
    ∃ L', L.Agrees w.engine.nextSession L' ∧
      w.engine.nextSession ≤ (w.after ms).engine.nextSession ∧
      (w.after ms).Voiced L' (fun id => trail id ++ w.trail id ms)
        fun id => results id ++ w.heard id ms := by
  induction ms generalizing w L trail results with
  | nil =>
      refine ⟨L, .refl _ L, Nat.le_refl _, ?_⟩
      simp only [Service.trail, Service.heard, log, List.append_nil]
      exact h
  | cons m ms ih =>
      obtain ⟨L₁, hL₁, hnext₁, h₁⟩ := h.make m
      obtain ⟨L', hL', hnext', h'⟩ := ih h₁
      refine ⟨L', hL₁.trans hL' hnext₁, Nat.le_trans hnext₁ hnext', ?_⟩
      simp only [Service.trail, Service.heard, log, ← List.append_assoc]
      exact h'

/-- The status variables of a stored session. -/
theorem statusTold (h : w.Voiced L trail results) (hget : w.engine.store.get? id = some s)
    {n : Node} (hn : n ∈ (L.pin id).nodes.items) (ha : n.isAction = true)
    (hspares : (L.pin id).Spares (n.id ++ "_status")) :
    StatusTold (results id) (s.left (trail id)) n.id (s.value? (n.id ++ "_status")) := by
  have hvoices := h.voices id s hget
  have hid : s.id = id := KeyedList.key_of_find? hget
  have hwf : (L.pin id).WellFormed := hid ▸ h.trails.sound.engine.registry.validated _
    (Registry.mem_of_version? (h.trails.sound.engine.placed id s hget).pinned)
  have hnodup : (s.left (trail id)).Nodup := by
    have htrail := (hwf.acyclic.walk (h.trails.traces.chain id)).1
    rw [Session.left]
    split
    · exact htrail
    · exact htrail.sublist (List.dropLast_sublist _)
  rw [hvoices.words _ hspares]
  exact statusTold_lastWord? hnodup fun hleft => hvoices.acted n hn ha hleft

end Voiced

theorem voiced_fresh (settings : Settings) (sink : Option Sink) (executor : Option Executor)
    (now : Instant) (pin : String → Flow) :
    (fresh settings sink executor now).Voiced ⟨pin, fun _ => ∅⟩ (fun _ => []) fun _ => [] where
  trails := trails_fresh settings sink executor now pin
  orderly := orderly_fresh settings sink executor now
  ofActions := fun _ _ hx => by cases hx
  knows := fun _ _ ht => by cases ht
  voices := fun _ _ hget => by cases hget

/-- **Status variables.**  In every run, whatever the executor answers, the status variable
of an action node of the flow that a stored session is pinned to, if neither a default nor an
input node uses its name, tells of the nodes that the session has left (`StatusTold`).
Unless the result of an action at another node stores something under its name, it is unset
until the session has left the node or has been completed there, and says from then on how
the action at the node has ended. -/
theorem statuses_told (settings : Settings) (sink : Option Sink) (executor : Option Executor)
    (now : Instant) (ms : List Move)
    (hget : ((fresh settings sink executor now).after ms).engine.store.get? id = some s) :
    ∃ f, ((fresh settings sink executor now).after ms).engine.registry.version? s.flowId
        s.flowVersion = some f ∧
      ∀ p ∈ f.nodes.items, p.isAction = true → f.Spares (p.id ++ "_status") →
        StatusTold ((fresh settings sink executor now).heard id ms)
          (s.left ((fresh settings sink executor now).trail id ms)) p.id
          (s.value? (p.id ++ "_status")) := by
  obtain ⟨L, -, -, h⟩ := (voiced_fresh settings sink executor now fun _ => .blank).after ms
  have hid : s.id = id := KeyedList.key_of_find? hget
  subst hid
  exact ⟨L.pin s.id, (h.trails.sound.engine.placed s.id s hget).pinned,
    fun p hp ha hspares => h.statusTold hget hp ha hspares⟩

end Service

/-- A second payment, at a node whose name goes on after that of the first one. -/
def Node.secondPayment : Node :=
  ⟨"pay_x", "Pay again?", .payment ⟨some "done", some "done"⟩ .zero "GHS"⟩

/-- Two payments, one after the other. -/
def Flow.twicePaying : Flow where
  id := "twice"
  name := none
  description := none
  version := 1
  startNode := "pay"
  nodes := .ofList [
    ⟨"pay", "Pay?", .payment ⟨some "pay_x", none⟩ .zero "GHS"⟩,
    .secondPayment,
    ⟨"done", "Done", .terminal⟩]
  defaults := .empty
  one_le_version := one_le_firstVersion

theorem Flow.spares_twicePaying (name : String) : Flow.twicePaying.Spares name := by
  have hinputs : ∀ n ∈ Flow.twicePaying.nodes.items, n.kind ≠ .input := by decide +kernel
  exact ⟨rfl, fun n hn spec next hb => absurd (show n.kind = .input by rw [Node.kind, hb])
    (hinputs n hn)⟩

namespace Service

/-- A service whose executor gives back a datum called `x_status` along with the success of
the first payment. -/
def forging : Service :=
  fresh .standard none
    (some (.prepared [.result ⟨true, [("x_status", .text "success")], none⟩]))
    ⟨0, Instant.zero_inRange⟩

/-- A session is started, and its first payment is made. -/
def payingOnce : List Move :=
  [.publish .twicePaying, .begin (.create ⟨"twice", "555", "*1#"⟩), .proceed 0, .proceed 0,
    .proceed 0, .proceed 0, .begin (.input (sessionId 1) "1"), .proceed 1, .proceed 1, .proceed 1,
    .proceed 1, .proceed 1, .proceed 1]

/-- The status variable of the second payment says that it has succeeded before it has been
asked for, because the first one forges it. -/
theorem statuses_told_forging :
    ∃ s, (forging.after payingOnce).engine.store.get? (sessionId 1) = some s ∧
      s.currentNode = some "pay_x" ∧ s.left (forging.trail (sessionId 1) payingOnce) = ["pay"] ∧
      s.value? "pay_x_status" = some "success" ∧
      Forged (forging.heard (sessionId 1) payingOnce) "pay_x" "pay" := by
  have hstored : ((forging.after payingOnce).engine.store.get? (sessionId 1)).any (fun s =>
      decide (s.currentNode = some "pay_x") &&
        decide (s.left (forging.trail (sessionId 1) payingOnce) = ["pay"]) &&
        decide (s.value? "pay_x_status" = some "success") &&
        decide ((forging.after payingOnce).engine.registry.version? s.flowId s.flowVersion =
          some .twicePaying)) = true := by decide +kernel
  obtain ⟨s, hget, hs⟩ := (Option.any_eq_true _ _).1 hstored
  simp only [Bool.and_eq_true, decide_eq_true_eq] at hs
  obtain ⟨⟨⟨hnode, hleft⟩, hvalue⟩, hpinned⟩ := hs
  obtain ⟨f, hf, htold⟩ := statuses_told .standard none _ ⟨0, Instant.zero_inRange⟩ payingOnce hget
  cases hf.symm.trans hpinned
  have htold : StatusTold (forging.heard (sessionId 1) payingOnce)
      (s.left (forging.trail (sessionId 1) payingOnce)) "pay_x"
      (s.value? ("pay_x" ++ "_status")) :=
    htold .secondPayment (by decide +kernel) rfl (Flow.spares_twicePaying _)
  rw [hleft, show "pay_x" ++ "_status" = "pay_x_status" by decide, hvalue] at htold
  refine ⟨s, hget, hnode, hleft, hvalue, ?_⟩
  -- the variable is set although the session has not left its node, so it has been forged
  by_contra hno
  have hnone := (htold.unset (by decide)).2 fun q hq => List.mem_singleton.1 hq ▸ hno
  cases hnone

end Service

end UssdFlows
