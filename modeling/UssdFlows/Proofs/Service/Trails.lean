import Mathlib.Data.List.Chain
import UssdFlows.Proofs.Service.Certified
import UssdFlows.Proofs.Service.Sections

/-!
# The trails of sessions

The *trail* of a session in a run is the list of nodes that it has been at: the
node where it starts, when it is stored, and the target of each move of a turn
(`Service.trail`).  The trail is a walk along the edges of the flow that the
session is pinned to, and ends where the session rests (`Trails`); a valid flow
has no cycles, so no node comes twice.

What makes this hold is that a session is served by one turn at a time: the turn
looks up the node where the session rests when it enters the section, and goes
on from there.  Every input that is answered by showing another node has moved
the session at least once.
-/

namespace UssdFlows

open EngineM

variable {L L' : Ledger} {others : String → Prop} {e e' : Engine} {id : String}

/-! ## Walks along edges -/

/-- In an acyclic flow no node comes twice in a walk, and a walk is no longer than
the rank of its first node allows. -/
theorem Flow.Acyclic.walk {f : Flow} (hac : f.Acyclic) {xs : List String}
    (h : xs.IsChain f.Edge) : xs.Nodup ∧ ∀ a, xs.head? = some a →
      xs.length ≤ f.rank a + 1 ∧ ∀ b ∈ xs, f.rank b ≤ f.rank a := by
  induction xs with
  | nil => exact ⟨List.nodup_nil, nofun⟩
  | cons a rest ih =>
      obtain ⟨hnodup, hbound⟩ := ih h.tail
      cases rest with
      | nil =>
          refine ⟨List.nodup_singleton a, ?_⟩
          rintro _ ⟨⟩
          refine ⟨Nat.le_add_left 1 _, fun b hb => ?_⟩
          rw [List.mem_singleton.1 hb]
      | cons c rest =>
          obtain ⟨hlength, hrank⟩ := hbound c rfl
          have hedge : f.Edge a c := (List.isChain_cons_cons.1 h).1
          have hfalls : f.rank c < f.rank a := Flow.rank_lt_of_edge hac hedge
          refine ⟨List.nodup_cons.2 ⟨fun hmem => ?_, hnodup⟩, ?_⟩
          · have hle := hrank a hmem
            omega
          · rintro _ ⟨⟩
            refine ⟨by rw [List.length_cons]; omega, fun b hb => ?_⟩
            rcases List.mem_cons.1 hb with rfl | hb
            · exact Nat.le_refl _
            · exact Nat.le_trans (hrank b hb) (Nat.le_of_lt hfalls)

/-! ## Notes of where sessions are -/

/-- The node that a session comes to when an operation goes on. -/
def Phase.visited (id : String) (e : Engine) : Phase → List String
  | settling _ _ s _ _ =>
    if s.id = id then
      match ((storeSession s).start e).1 with
      | .ok () => s.currentNode.toList
      | .error _ => []
    else []
  | playing _ _ (_ + 1) .advance t =>
    if t.sessionId = id then
      match (t.advance.start e).1 with
      | .ok t' => [t'.node.id]
      | .error _ => []
    else []
  | _ => []

/-- Whether an operation has answered an input to a session by showing a node that
awaits another one. -/
def Phase.hasAdvanced (id : String) : Phase → Bool
  | finished (.ok (.navigation shown _)) =>
    shown.sessionId == id && shown.error.isNone && !shown.isFinished
  | _ => false

namespace Service

/-- The nodes that a session has been at. -/
def trail (w : Service) (id : String) (ms : List Move) : List String :=
  w.log (fun _ t e => t.phase.visited id e) ms

/-- The number of inputs to a session that were answered by showing another node. -/
def advances (w : Service) (id : String) : Nat := w.tasks.countP fun t => t.phase.hasAdvanced id

end Service

/-! ## Trails and ledgers -/

/-- Every trail is a walk along the edges of the flow that its session walks
through, from the start. -/
structure Ledger.Traces (L : Ledger) (next : Nat) (trail : String → List String) : Prop where
  issued : ∀ id, trail id ≠ [] → IsIssued next id
  chain : ∀ id, (trail id).IsChain (L.pin id).Edge
  start : ∀ id a, (trail id).head? = some a → a = (L.pin id).startNode

namespace Ledger.Traces

variable {m n : Nat} {trail trail' : String → List String}

theorem mono (h : L.Traces m trail) (hL : L.Agrees m L') (hmn : m ≤ n) : L'.Traces n trail where
  issued := fun id hne => (h.issued id hne).mono hmn
  chain := fun id => by
    by_cases hnil : trail id = []
    · rw [hnil]
      exact List.isChain_nil
    · rw [(hL id (h.issued id hnil)).1]
      exact h.chain id
  start := fun id a ha => by
    have hne : trail id ≠ [] := by
      rintro hnil
      rw [hnil] at ha
      cases ha
    rw [(hL id (h.issued id hne)).1]
    exact h.start id a ha

/-- A trail begins at the start of the flow, and goes on along an edge. -/
def Links (L : Ledger) (trail : String → List String) (id b : String) : Prop :=
  (trail id = [] ∧ b = (L.pin id).startNode) ∨
    ∃ a, (trail id).getLast? = some a ∧ (L.pin id).Edge a b

theorem extend (h : L.Traces n trail) {b : String} (hissued : IsIssued n id)
    (hlinks : Links L trail id b) (hown : trail' id = trail id ++ [b])
    (hothers : ∀ j, j ≠ id → trail' j = trail j) : L.Traces n trail' where
  issued := fun j hne => by
    by_cases hj : j = id
    · subst hj
      exact hissued
    · rw [hothers j hj] at hne
      exact h.issued j hne
  chain := fun j => by
    by_cases hj : j = id
    · subst hj
      rw [hown]
      refine List.isChain_append.2 ⟨h.chain j, List.isChain_singleton b, fun x hx y hy => ?_⟩
      cases hy
      rcases hlinks with ⟨hnil, -⟩ | ⟨a, ha, hab⟩
      · rw [hnil] at hx
        cases hx
      · rw [Option.mem_def, ha, Option.some.injEq] at hx
        exact hx ▸ hab
    · rw [hothers j hj]
      exact h.chain j
  start := fun j a ha => by
    by_cases hj : j = id
    · subst hj
      rw [hown] at ha
      rcases hlinks with ⟨hnil, rfl⟩ | ⟨c, hc, -⟩
      · rw [hnil] at ha
        exact (Option.some.inj ha).symm
      · refine h.start j a ?_
        cases htrail : trail j with
        | nil =>
            rw [htrail] at hc
            cases hc
        | cons x rest =>
            rw [htrail] at ha
            exact ha
    · rw [hothers j hj] at ha
      exact h.start j a ha

end Ledger.Traces

/-! ## Stages in sound engines -/

namespace Phase

variable {v : Visitor} {p p' : Phase} {purpose : Purpose} {lock left : Nat} {σ : Stage}
  {t t' : Turn} {r : Except EngineError Turn}

/-- A stage that an operation performs leaves its turn ready for what comes next. -/
theorem Plays.leaves (hp : Plays e p purpose lock left σ t r e')
    (h : e.Sound L (p.Moving others)) (hf : p.Fits L e) :
    t.Fits L e.nextSession σ ∧ t.Leaves L others σ r e' := by
  cases hp with
  | exhausted => exact absurd (t.cost_pos σ) (Nat.not_lt.2 hf.2)
  | stage hσ hstart =>
      have hleaves := (Turn.leaves_perform h hf.1).2
      rw [hstart] at hleaves
      exact ⟨hf.1, hleaves⟩
  | unasked hask =>
      refine ⟨hf.1, ?_⟩
      rcases Turn.start_ask_cases h.replaced t with ⟨hget, herr⟩ | ⟨pending, e₁, hok, -⟩
      · rw [hask] at herr
        cases herr
        exact Turn.leaves_missing h hget
      · rw [hask] at hok
        cases hok
  | hears hask hhear =>
      refine ⟨hf.1, ?_⟩
      rcases Turn.start_ask_cases h.replaced t with ⟨-, herr⟩ | ⟨pending, e₁, hok, hsame, hstore, -⟩
      · rw [hask] at herr
        cases herr
      · rw [hask] at hok
        cases hok
        have hleaves := (Turn.leaves_hear (h.of_same hsame hstore)
          (hf.1.mono hsame.grows.next (.refl _ L)) none).2
        rw [hhear] at hleaves
        exact hleaves
  | @answered _ _ _ pending _ _ _ hhear =>
      have hleaves := (Turn.leaves_hear h hf.1 (some pending)).2
      rw [hhear] at hleaves
      exact ⟨hf.1, hleaves⟩

/-- A move of a turn takes a stored session along an edge, and is nothing if the
session is not stored. -/
theorem Plays.advances (hp : Plays e p purpose lock left .advance t r e')
    (h : e.Sound L (p.Moving others)) (hf : p.Fits L e) :
    p = .playing purpose lock (left + 1) .advance t ∧ t.advance.start e = (r, e') ∧
      ((∃ err, r = .error err ∧ e' = e) ∨
        ∃ s n o, e.store.get? t.sessionId = some s ∧ r = .ok (t.arrived n) ∧ e' = e.moved s n o ∧
          t.flow.Edge t.node.id n.id) := by
  have hfits := (hp.leaves h hf).1
  obtain ⟨o, target, ho, htarget, hmem⟩ := hfits.leads rfl
  obtain ⟨n, hn, rfl, hedge, -⟩ := hfits.target hmem
  cases hp with
  | exhausted => exact absurd (t.cost_pos .advance) (Nat.not_lt.2 hf.2)
  | stage hσ hstart =>
      refine ⟨rfl, hstart, ?_⟩
      rw [Turn.perform] at hstart
      cases hget : e.store.get? t.sessionId with
      | none =>
          rw [Turn.start_advance_of_missing hget ho htarget hn] at hstart
          cases hstart
          exact Or.inl ⟨_, rfl, rfl⟩
      | some s =>
          rw [Turn.start_advance hget ho htarget hn] at hstart
          cases hstart
          exact Or.inr ⟨s, n, o, rfl, rfl, rfl, hedge⟩

/-! ## Where an operation is on a trail -/

/-- The session that an operation is about to store, or is serving. -/
def about? : Phase → Option String
  | settling _ _ s _ _ => some s.id
  | playing _ _ _ _ t | acting _ _ _ _ t => some t.sessionId
  | _ => none

/-- What an operation knows of the trail of its session: a session to be stored
has none yet, and a turn stands where the trail ends.  The moves of the turn come
after one for each input that was answered before, and a turn that shows a node
in answer to an input has moved. -/
def Walks (trail : String → List String) (answers : String → Nat) : Phase → Prop
  | settling _ _ s t _ =>
    trail s.id = [] ∧ s.currentNode = some t.node.id ∧ t.node.id = t.flow.startNode ∧ t.hops = 0
  | playing purpose _ _ σ t =>
    (trail t.sessionId).getLast? = some t.node.id ∧
      answers t.sessionId + t.hops + 1 ≤ (trail t.sessionId).length ∧
      (purpose = .answer → σ = .respond → 0 < t.hops)
  | acting _ _ _ _ t =>
    (trail t.sessionId).getLast? = some t.node.id ∧
      answers t.sessionId + t.hops + 1 ≤ (trail t.sessionId).length
  | _ => True

theorem inside_subset_uses (p : Phase) {key : String} (h : key ∈ p.inside) :
    key ∈ p.uses.map Prod.fst := by
  cases p with
  | settling c callerLock s t lock =>
      rw [List.mem_singleton.1 h]
      exact List.mem_cons_self ..
  | playing purpose lock left σ t => exact h
  | acting purpose lock left pending t => exact h
  | _ => exact absurd h List.not_mem_nil

variable {trail trail' : String → List String} {answers answers' : String → Nat}

/-- An operation that is about a session is about to store it, or serves it inside
its section. -/
theorem about_cases (h : p.about? = some id) :
    (∃ c callerLock s t lock, p = .settling c callerLock s t lock ∧ s.id = id) ∨
      id ∈ p.inside ∧ ∀ {trail answers}, p.Walks trail answers → trail id ≠ [] := by
  have hturn : ∀ (purpose : Purpose) (lock : Nat) (t : Turn), t.sessionId = id →
      id ∈ (purpose.uses ++ [(t.sessionId, lock)]).map Prod.fst := by
    intro purpose lock t hid
    rw [List.map_append, List.mem_append, ← hid]
    exact Or.inr (List.mem_singleton_self _)
  have hlast : ∀ {xs : List String} {a : String}, xs.getLast? = some a → xs ≠ [] := by
    rintro xs a hxs rfl
    cases hxs
  cases p with
  | settling c callerLock s t lock => exact Or.inl ⟨c, callerLock, s, t, lock, rfl, Option.some.inj h⟩
  | playing purpose lock left σ t =>
      have hid : t.sessionId = id := Option.some.inj h
      exact Or.inr ⟨hturn purpose lock t hid, fun hw => hid ▸ hlast hw.1⟩
  | acting purpose lock left pending t =>
      have hid : t.sessionId = id := Option.some.inj h
      exact Or.inr ⟨hturn purpose lock t hid, fun hw => hid ▸ hlast hw.1⟩
  | _ => cases h

theorem Walks.congr (h : p.Walks trail answers)
    (hsame : ∀ id, p.about? = some id → trail' id = trail id ∧ answers' id = answers id) :
    p.Walks trail' answers' := by
  cases p with
  | settling c callerLock s t lock =>
      rw [Walks, (hsame _ rfl).1]
      exact h
  | playing purpose lock left σ t =>
      rw [Walks, (hsame _ rfl).1, (hsame _ rfl).2]
      exact h
  | acting purpose lock left pending t =>
      rw [Walks, (hsame _ rfl).1, (hsame _ rfl).2]
      exact h
  | _ => trivial

theorem visited_eq_nil (h : p.about? ≠ some id) (e : Engine) : p.visited id e = [] := by
  cases p with
  | settling c callerLock s t lock => exact if_neg fun hid => h (congrArg some hid)
  | playing purpose lock left σ t =>
      cases left with
      | zero => cases σ <;> rfl
      | succ left =>
          cases σ with
          | advance => exact if_neg fun hid => h (congrArg some hid)
          | _ => rfl
  | _ => rfl

theorem Plays.visited_eq_nil (hp : Plays e p purpose lock left σ t r e') (hσ : σ ≠ .advance)
    (id : String) : p.visited id e = [] := by
  cases hp with
  | exhausted => cases σ <;> rfl
  | stage => cases σ with
    | advance => exact absurd rfl hσ
    | _ => rfl
  | _ => rfl

/-- The sessions rest where they rested. -/
def KeepsNodes (e e' : Engine) : Prop :=
  ∀ id s', e'.store.get? id = some s' →
    ∃ s, e.store.get? id = some s ∧ s'.currentNode = s.currentNode

theorem keepsNodes_of_store (h : e'.store = e.store) : KeepsNodes e e' :=
  fun _ s' hget => ⟨s', h ▸ hget, rfl⟩

theorem KeepsNodes.trans {e₁ : Engine} (h : KeepsNodes e e₁) (h' : KeepsNodes e₁ e') :
    KeepsNodes e e' := by
  intro id s'' hget
  obtain ⟨s', hget', hnode'⟩ := h' id s'' hget
  obtain ⟨s, hget, hnode⟩ := h id s' hget'
  exact ⟨s, hget, hnode'.trans hnode⟩

theorem keepsNodes_of_touches {may : Effect → Prop} (h : e.Touches may id e')
    (hno : ¬ may .move) : KeepsNodes e e' := by
  intro j s' hget
  by_cases hj : j = id
  · subst hj
    obtain ⟨s, hget, hfollows⟩ := h.own s' hget
    exact ⟨s, hget, hfollows.node hno⟩
  · rw [h.others j hj] at hget
    exact ⟨s', hget, rfl⟩

theorem visited_of_stored {c : Caller} {callerLock : Nat} {s : Session}
    (h : (storeSession s).start e = (.ok (), e')) :
    (settling c callerLock s t lock).visited s.id e = s.currentNode.toList := by
  show (if s.id = s.id then _ else _) = _
  rw [if_pos rfl, h]

theorem visited_of_advanced (h : t.advance.start e = (.ok t', e')) :
    (playing purpose lock (left + 1) .advance t).visited t.sessionId e = [t'.node.id] := by
  show (if t.sessionId = t.sessionId then _ else _) = _
  rw [if_pos rfl, h]

/-- What an operation that goes on means to the trails: all sessions rest where they
rested, or the one that the operation is about goes on to the next node of its trail. -/
inductive Treads (L : Ledger) (trail : String → List String) (e : Engine) (p : Phase)
    (e' : Engine) : Prop where
  | stays (hnone : ∀ id, p.visited id e = []) (hkeeps : KeepsNodes e e')
  | moves (id b : String) (habout : p.about? = some id) (hvisited : p.visited id e = [b])
      (hissued : IsIssued e.nextSession id) (hlinks : Ledger.Traces.Links L trail id b)
      (hown : ∀ s, e'.store.get? id = some s → s.currentNode = some b)
      (hothers : ∀ j, j ≠ id → e'.store.get? j = e.store.get? j)

theorem treads_of_store (hnone : ∀ id, p.visited id e = []) (h : e'.store = e.store) :
    Treads L trail e p e' := .stays hnone (keepsNodes_of_store h)

/-- No session moves when a program is run that does not move the one that it is
about. -/
theorem treads_of_confined {α : Type} {may : Effect → Prop} {x : EngineM α}
    {r : Except EngineError α} {e₁ : Engine} (hx : Confined may id x)
    (hstart : x.start e = (r, e₁)) (hno : ¬ may .move) (hstore : e'.store = e₁.store)
    (hnone : ∀ id, p.visited id e = []) : Treads L trail e p e' := by
  have htouches := hx.touches_of_start hstart
  exact .stays hnone ((keepsNodes_of_touches htouches hno).trans (keepsNodes_of_store hstore))

/-- A session that is stored begins its trail. -/
theorem treads_stored {c : Caller} {callerLock : Nat} {s : Session}
    (hstore : (storeSession s).start e = (.ok (), e'))
    (hw : (settling c callerLock s t lock).Walks trail answers)
    (hf : (settling c callerLock s t lock).Fits L e) :
    Treads L trail e (.settling c callerLock s t lock) e' := by
  obtain rfl : e' = e.opened s := by
    rcases start_storeSession s e with hok | herr
    · cases hstore.symm.trans hok
      rfl
    · cases hstore.symm.trans herr
  refine .moves s.id t.node.id rfl ?_ hf.placed.issued (Or.inl ⟨hw.1, hw.2.2.1.trans ?_⟩)
    (fun s' hget => ?_) fun j hj => ?_
  · rw [visited_of_stored hstore, hw.2.1]
    rfl
  · rw [hf.fits.flow, hf.same]
  · have hkept : (e.keep s).store.get? s.id = some s' := hget
    rw [Engine.get?_keep, if_pos rfl] at hkept
    cases hkept
    exact hw.2.1
  · show (e.keep s).store.get? j = _
    rw [Engine.get?_keep, if_neg (Ne.symm hj)]

/-- No stage but a move moves a session. -/
theorem Plays.treads_of_ne (hp : Plays e p purpose lock left σ t r e₁) (hσ : σ ≠ .advance)
    (hstore : e'.store = e₁.store) : Treads L trail e p e' := by
  refine .stays (hp.visited_eq_nil hσ) ((keepsNodes_of_touches hp.touches.1 ?_).trans
    (keepsNodes_of_store hstore))
  intro hmay
  cases σ <;> first | exact hσ rfl | cases hmay

/-- A session that moves goes on along an edge of its flow. -/
theorem Plays.treads_advance (hp : Plays e p purpose lock left .advance t (.ok t') e')
    (hw : p.Walks trail answers) (h : e.Sound L (p.Moving others)) (hf : p.Fits L e) :
    Treads L trail e p e' := by
  obtain ⟨rfl, hstart, ⟨err, herr, -⟩ | ⟨s, n, o, hget, hok, rfl, hedge⟩⟩ := hp.advances h hf
  · cases herr
  · cases hok
    have hfits := (hp.leaves h hf).1
    refine .moves t.sessionId n.id rfl (visited_of_advanced hstart) hfits.issued
      (Or.inr ⟨t.node.id, hw.1, hfits.flow ▸ hedge⟩) (fun s' hget' => ?_)
      fun j hj => hp.touches.1.others j hj
    rw [Engine.get?_moved (KeyedList.key_of_find? hget) o] at hget'
    cases hget'
    rfl

/-- A session that fails to move stays where it is. -/
theorem Plays.treads_failed {err : EngineError}
    (hp : Plays e p purpose lock left .advance t (.error err) e₁)
    (h : e.Sound L (p.Moving others)) (hf : p.Fits L e) (hstore : e'.store = e₁.store) :
    Treads L trail e p e' := by
  obtain ⟨rfl, hstart, ⟨err', -, rfl⟩ | ⟨s, n, o, -, hok, -⟩⟩ := hp.advances h hf
  · refine treads_of_store (fun id => ?_) hstore
    show (if t.sessionId = id then _ else _) = _
    rw [hstart]
    split <;> rfl
  · cases hok

/-- Every operation that goes on takes the trails on. -/
theorem Goes.treads (hg : Goes v e p p' e') (hw : p.Walks trail answers)
    (h : e.Sound L (p.Moving others)) (hf : p.Fits L e) : Treads L trail e p e' := by
  cases hg with
  | unserved _ => exact treads_of_store (fun _ => rfl) rfl
  | calls _ => exact treads_of_store (fun _ => rfl) rfl
  | asks _ => exact treads_of_store (fun _ => rfl) rfl
  | strays => exact treads_of_store (fun _ => rfl) rfl
  | opens hopen =>
      obtain ⟨-, rfl, -⟩ := openSession_opened hopen
      exact treads_of_store (fun _ => rfl) rfl
  | resumes hopen _ hc =>
      have hstore := hc.alike.store
      rcases openSession_cases hopen with rfl | rfl
      · exact treads_of_store (fun _ => rfl) hstore
      · exact treads_of_store (fun _ => rfl) hstore
  | stores hstore => exact treads_stored hstore hw hf
  | @drops c callerLock s t lock err e₁ _ hstore hc =>
      obtain rfl : e₁ = e := by
        rcases start_storeSession s e with hok | herr
        · cases hstore.symm.trans hok
        · cases hstore.symm.trans herr
          rfl
      refine treads_of_store (fun id => ?_) hc.alike.store
      show (if s.id = id then _ else _) = _
      rw [hstore]
      split <;> rfl
  | admits hadmission =>
      obtain ⟨rfl, -⟩ := admission_admitted hadmission
      exact treads_of_store (fun _ => rfl) rfl
  | @refuses i text id lock a err e₁ _ hadmission _ hc =>
      exact treads_of_confined (confined_admission id text) hadmission nofun hc.alike.store
        fun _ => rfl
  | @ends i reason id lock r e₁ _ hend hc =>
      exact treads_of_confined (confined_endSession id reason) hend nofun hc.alike.store
        fun _ => rfl
  | @lapses i now id lock r e₁ _ hlapse hc =>
      exact treads_of_confined (confined_lapseIfDue id now) hlapse nofun hc.alike.store
        fun _ => rfl
  | @waits purpose lock left t pending _ hask =>
      have hask' : Confined (fun _ => False) t.sessionId t.ask := t.confined_ask
      exact treads_of_confined hask' hask (fun hno => hno) rfl fun _ => rfl
  | @continues _ purpose lock left σ t t' σ' _ hplays hn =>
      by_cases hσ : σ = .advance
      · subst hσ
        exact hplays.treads_advance hw h hf
      · exact hplays.treads_of_ne hσ rfl
  | @concludes _ purpose lock left σ t r out e₁ _ hplays hn hc _ =>
      by_cases hσ : σ = .advance
      · subst hσ
        cases r with
        | error err => exact hplays.treads_failed h hf hc.alike.store
        | ok t' =>
            obtain ⟨-, -, ⟨err, herr, -⟩ | ⟨s, n, o, -, hok, -⟩⟩ := hplays.advances h hf
            · cases herr
            · cases hok
              cases hn _ rfl
      · exact hplays.treads_of_ne hσ hc.alike.store

/-- A session that is stored knows the first node of its trail. -/
theorem walks_stored {c : Caller} {callerLock : Nat} {s : Session}
    (hstore : (storeSession s).start e = (.ok (), e'))
    (hw : (settling c callerLock s t lock).Walks trail answers)
    (hf : (settling c callerLock s t lock).Fits L e)
    (hanswers : ∀ id, answers id ≤ (trail id).length - 1)
    (htrail : ∀ id, trail' id = trail id ++ (settling c callerLock s t lock).visited id e)
    (σ : Stage) (callerLock' : Nat) :
    (playing (.settle c callerLock') lock left σ t).Walks trail' answers := by
  obtain ⟨hnil, hnode, -, hhops⟩ := hw
  have hone : trail' t.sessionId = [t.node.id] := by
    rw [htrail, hf.same, visited_of_stored hstore, hnil, hnode]
    rfl
  have hnone : answers t.sessionId ≤ 0 := by
    have hle := hanswers t.sessionId
    rw [hf.same, hnil] at hle
    rw [hf.same]
    exact hle
  refine ⟨?_, ?_, nofun⟩
  · rw [hone]
    rfl
  · rw [hone, List.length_singleton]
    omega

/-- An input that is admitted is answered from where its session rests. -/
theorem walks_admitted {i text : String} {e₁ : Engine}
    (hadmission : (admission id text).start e = (.ok (.admitted t), e₁))
    (hrests : ∀ id s, e.store.get? id = some s → (trail id).getLast? = s.currentNode)
    (hanswers : ∀ id, answers id ≤ (trail id).length - 1)
    (htrail : ∀ id', trail' id' = trail id' ++ (entering (.input i text) id lock).visited id' e) :
    (playing .answer lock left t.entry t).Walks trail' answers := by
  obtain ⟨-, s, f, n, hget, -, -, hn, rfl⟩ := admission_admitted hadmission
  obtain ⟨node, hnode, hn'⟩ := Option.bind_eq_some_iff.1 hn
  have hnid : n.id = node := KeyedList.key_of_find? hn'
  have hsame : trail' id = trail id := (htrail id).trans (List.append_nil _)
  have hlast : (trail' id).getLast? = some n.id := by
    rw [hsame, hrests id s hget, hnode, hnid]
  have hpos : 0 < (trail' id).length := by
    cases hxs : trail' id with
    | nil =>
        rw [hxs] at hlast
        cases hlast
    | cons a rest => exact Nat.succ_pos _
  have hle := hanswers id
  rw [← hsame] at hle
  refine ⟨hlast, ?_, nofun⟩
  show answers id + 0 + 1 ≤ (trail' id).length
  omega

/-- Only a move leads to the node being shown. -/
theorem advance_of_respond (h : t.next? σ = some .respond) : σ = .advance := by
  cases σ with
  | advance => rfl
  | dispatch =>
      rw [Turn.next?, Turn.afterDispatch, Option.some.injEq] at h
      repeat' split at h
      all_goals cases h
  | _ => cases h

/-- A turn that goes on knows where its session is. -/
theorem Plays.walks {σ' : Stage} {left' : Nat}
    (hp : Plays e p purpose lock left σ t (.ok t') e') (hn : t'.next? σ = some σ')
    (hw : p.Walks trail answers) (h : e.Sound L (p.Moving others)) (hf : p.Fits L e)
    (htrail : ∀ id, trail' id = trail id ++ p.visited id e) :
    (playing purpose lock left' σ' t').Walks trail' answers := by
  have hcontinues := hp.continues
  have hturn : (trail t.sessionId).getLast? = some t.node.id ∧
      answers t.sessionId + t.hops + 1 ≤ (trail t.sessionId).length := by
    cases hp with
    | answered => exact hw
    | _ => exact ⟨hw.1, hw.2.1⟩
  rw [Walks, hcontinues.sessionId]
  by_cases hσ : σ = .advance
  · subst hσ
    obtain ⟨rfl, hstart, -⟩ := hp.advances h hf
    have hhops : t'.hops = t.hops + 1 := hcontinues.hops
    rw [htrail, visited_of_advanced hstart, List.getLast?_append, List.length_append,
      List.length_singleton]
    exact ⟨rfl, by omega, fun _ _ => by omega⟩
  · have hhops : t'.hops = t.hops := by
      rw [hcontinues.hops, if_neg hσ]
    have hsame : trail' t.sessionId = trail t.sessionId := by
      rw [htrail, hp.visited_eq_nil hσ, List.append_nil]
    rw [hsame, hcontinues.node hσ, hhops]
    refine ⟨hturn.1, hturn.2, fun _ hrespond => ?_⟩
    subst hrespond
    exact absurd (advance_of_respond hn) hσ

/-- Going on with an operation keeps what it knows of the trail of its session. -/
theorem Goes.walks (hg : Goes v e p p' e') (hw : p.Walks trail answers)
    (h : e.Sound L (p.Moving others)) (hf : p.Fits L e)
    (hissued : ∀ id, trail id ≠ [] → IsIssued e.nextSession id)
    (hrests : ∀ id s, e.store.get? id = some s → (trail id).getLast? = s.currentNode)
    (hanswers : ∀ id, answers id ≤ (trail id).length - 1)
    (htrail : ∀ id, trail' id = trail id ++ p.visited id e) : p'.Walks trail' answers := by
  cases hg with
  | opens hopen =>
      obtain ⟨-, -, expiry, n, rfl, hn, rfl⟩ := openSession_opened hopen
      have hnil : trail (sessionId e.nextSession) = [] := by
        by_contra hne
        exact not_isIssued_self _ (hissued _ hne)
      have hnid : n.id = _ := KeyedList.key_of_find? hn
      refine ⟨?_, congrArg some hnid.symm, hnid, rfl⟩
      rw [htrail]
      exact (List.append_nil _).trans hnil
  | stores hstore => exact walks_stored hstore hw hf hanswers htrail _ _
  | admits hadmission => exact walks_admitted hadmission hrests hanswers htrail
  | @waits purpose lock left t pending _ _ =>
      have hsame : trail' t.sessionId = trail t.sessionId :=
        (htrail t.sessionId).trans (List.append_nil _)
      rw [Walks, hsame]
      exact ⟨hw.1, hw.2.1⟩
  | continues hplays hn => exact hplays.walks hn hw h hf htrail
  | _ => trivial

/-- An operation that answers an input by showing another node has moved the
session in its turn. -/
theorem Goes.hasAdvanced (hg : Goes v e p p' e') (hw : p.Walks trail answers)
    (ha : p'.hasAdvanced id = true) :
    p.about? = some id ∧ answers id + 2 ≤ (trail id).length := by
  cases hg with
  | @resumes c f lock r out e₁ _ _ hr _ =>
      rcases r with err | s | ⟨s, t⟩ <;> cases hr <;> cases ha
  | @ends i reason id lock r e₁ _ _ _ => cases r <;> cases ha
  | @lapses i now id lock r e₁ _ _ _ => cases r <;> cases ha
  | @concludes _ purpose lock left σ t r out e₁ _ hplays hn _ hout =>
      rcases out with err | s | ⟨shown, s⟩ | b
      · cases ha
      · cases ha
      · obtain ⟨rfl, t', rfl, hid, hfinished, herror⟩ := hout shown s rfl
        simp only [Phase.hasAdvanced, Bool.and_eq_true, beq_iff_eq, Bool.not_eq_true',
          Option.isNone_iff_eq_none] at ha
        obtain ⟨⟨rfl, hnone⟩, hopen⟩ := ha
        have hnext := hn t' rfl
        have hcontinues := hplays.continues
        rw [hid, hcontinues.sessionId]
        -- the turn has ended by showing the node where it has come to
        have hσ : σ = .respond := by
          cases σ with
          | respond => rfl
          | complete =>
              rw [hfinished, hcontinues.finished rfl] at hopen
              cases hopen
          | reprompt =>
              have hsome := hcontinues.error rfl
              rw [← herror, hnone] at hsome
              cases hsome
          | _ => cases hnext
        subst hσ
        cases hplays with
        | stage _ _ =>
            have hhops := hw.2.2 rfl rfl
            have hlength := hw.2.1
            exact ⟨rfl, by omega⟩
      · cases ha
  | _ => cases ha

/-- A session that is about to be stored has the next id. -/
theorem Goes.settling {c : Caller} {callerLock : Nat} {s : Session} {lock : Nat}
    (hg : Goes v e p (.settling c callerLock s t lock) e') : s.id = sessionId e.nextSession := by
  cases hg with
  | opens hopen =>
      obtain ⟨-, -, expiry, n, rfl, -⟩ := openSession_opened hopen
      rfl

end Phase

/-! ## Trails in runs -/

namespace Service

variable {w : Service} {trail : String → List String}

/-- The trails of all sessions are walks that end where the sessions rest, and
every operation in progress knows its place on the trail of its session. -/
structure Trails (L : Ledger) (w : Service) (trail : String → List String) : Prop where
  sound : w.Sound L
  inLine : w.InLine
  traces : L.Traces w.engine.nextSession trail
  rests : ∀ id s, w.engine.store.get? id = some s → (trail id).getLast? = s.currentNode
  answers : ∀ id, w.advances id ≤ (trail id).length - 1
  walks : ∀ (i : Nat) (t : Task), w.tasks[i]? = some t → t.phase.Walks trail w.advances
  apart : ∀ (i j : Nat) (t u : Task) (c c' : Caller) (n n' : Nat) (s s' : Session) (r r' : Turn)
    (k k' : Nat), w.tasks[i]? = some t → w.tasks[j]? = some u →
    t.phase = .settling c n s r k → u.phase = .settling c' n' s' r' k' → s.id = s'.id → i = j

namespace Trails

/-- Only one operation at a time is about a session. -/
theorem alone (h : w.Trails L trail) {i j : Nat} {t u : Task} (ht : w.tasks[i]? = some t)
    (hcan : t.phase.canStep t.visitor w.engine = true) (hu : w.tasks[j]? = some u)
    (hi : t.phase.about? = some id) (hj : u.phase.about? = some id) : j = i := by
  have hwt := h.walks i t ht
  have hwu := h.walks j u hu
  rcases Phase.about_cases hi with ⟨c, n, s, r, k, hpt, rfl⟩ | ⟨hin, hne⟩
  · rcases Phase.about_cases hj with ⟨c', n', s', r', k', hpu, hid⟩ | ⟨-, hne⟩
    · exact h.apart j i u t c' c n' n s' s r' r k' k hu ht hpu hpt hid
    · rw [hpt] at hwt
      exact absurd hwt.1 (hne hwu)
  · rcases Phase.about_cases hj with ⟨c', n', s', r', k', hpu, rfl⟩ | ⟨hin', -⟩
    · rw [hpu] at hwu
      exact absurd hwu.1 (hne hwt)
    · by_contra hji
      exact h.inLine.ne_of_inside ht hcan hu hji (t.phase.inside_subset_uses hin) hin'

/-- A session that is about to be stored has been nowhere yet, so it is not stored. -/
theorem get?_settling (h : w.Trails L trail) {i : Nat} {t : Task} (ht : w.tasks[i]? = some t)
    {c : Caller} {n : Nat} {s : Session} {r : Turn} {k : Nat} (hp : t.phase = .settling c n s r k) :
    w.engine.store.get? s.id = none := by
  have hwalks := h.walks i t ht
  rw [hp] at hwalks
  cases hget : w.engine.store.get? s.id with
  | none => rfl
  | some s' =>
      obtain ⟨node, hnode, -⟩ := (h.sound.engine.placed s.id s' hget).resting
      have hrests := h.rests s.id s' hget
      rw [hnode, hwalks.1] at hrests
      cases hrests

/-- The engine changes without an operation going on. -/
theorem of_engine (h : w.Trails L trail) {published : List Flow}
    (hL : L.Agrees w.engine.nextSession L') (hnext : w.engine.nextSession ≤ e'.nextSession)
    (hsound : (⟨e', w.tasks, published⟩ : Service).Sound L')
    (hline : (⟨e', w.tasks, published⟩ : Service).InLine)
    (hkeeps : Phase.KeepsNodes w.engine e') :
    (⟨e', w.tasks, published⟩ : Service).Trails L' trail where
  sound := hsound
  inLine := hline
  traces := h.traces.mono hL hnext
  rests := fun id s' hget => by
    obtain ⟨s, hget', hnode⟩ := hkeeps id s' hget
    rw [hnode]
    exact h.rests id s hget'
  answers := h.answers
  walks := h.walks
  apart := h.apart

theorem begin (h : w.Trails L trail) (call : Call) : (w.begin call).Trails L trail := by
  have hadvances : (w.begin call).advances = w.advances := by
    funext id
    show List.countP _ (w.tasks ++ [_]) = _
    rw [List.countP_append]
    rfl
  refine ⟨h.sound.begin call, h.inLine.begin call, h.traces, h.rests, fun id => ?_,
    fun i t ht => ?_, fun i j t u c c' n n' s s' r r' k k' ht hu hpt hpu hid => ?_⟩
  · rw [hadvances]
    exact h.answers id
  · rw [hadvances]
    rcases begin_cases ht with ht | ⟨-, rfl⟩
    · exact h.walks i t ht
    · trivial
  · rcases begin_cases ht with ht | ⟨-, rfl⟩
    · rcases begin_cases hu with hu | ⟨-, rfl⟩
      · exact h.apart i j t u c c' n n' s s' r r' k k' ht hu hpt hpu hid
      · cases hpu
    · cases hpt

/-- One more input may have been answered when an operation has gone on. -/
theorem advances_set {i : Nat} {t : Task} {p : Phase} (ht : w.tasks[i]? = some t)
    (hopen : t.phase.isFinished = false) (id : String) :
    (⟨e', w.tasks.set i { t with phase := p }, w.published⟩ : Service).advances id =
      w.advances id + if p.hasAdvanced id then 1 else 0 := by
  obtain ⟨hi, hti⟩ := List.getElem?_eq_some_iff.1 ht
  have hbefore : (w.tasks[i]).phase.hasAdvanced id = false := by
    rw [hti]
    cases hp : t.phase with
    | finished r =>
        rw [hp] at hopen
        cases hopen
    | _ => rfl
  show List.countP _ (w.tasks.set i _) = _
  rw [List.countP_set hi, hbefore]
  rfl

/-- A session that is about to be stored has an id that no other one has. -/
theorem ne_of_settling (h : w.Trails L trail) {t u : Task} {k : Nat} {c c' : Caller} {n n' : Nat}
    {s s' : Session} {r r' : Turn} {l l' : Nat}
    (hg : t.phase.Goes t.visitor w.engine (.settling c n s r l) e') (hu : w.tasks[k]? = some u)
    (hp : u.phase = .settling c' n' s' r' l') : s.id ≠ s'.id := by
  intro hid
  have hopens := h.sound.tasks u (List.mem_of_getElem? hu)
  rw [hp] at hopens
  exact hopens.placed.issued.ne (hid.symm.trans hg.settling)

theorem apart_set (h : w.Trails L trail) {i : Nat} {t : Task} {p : Phase}
    (hg : t.phase.Goes t.visitor w.engine p e') {j k : Nat} {u u' : Task} {c c' : Caller}
    {n n' : Nat} {s s' : Session} {r r' : Turn} {l l' : Nat}
    (hu : (w.tasks.set i { t with phase := p })[j]? = some u)
    (hu' : (w.tasks.set i { t with phase := p })[k]? = some u')
    (hpu : u.phase = .settling c n s r l) (hpu' : u'.phase = .settling c' n' s' r' l')
    (hid : s.id = s'.id) : j = k := by
  rcases set_cases hu with ⟨hji, rfl⟩ | ⟨-, hju⟩
  · rcases set_cases hu' with ⟨hki, -⟩ | ⟨-, hku'⟩
    · exact hji.trans hki.symm
    · obtain rfl : p = _ := hpu
      exact absurd hid (h.ne_of_settling hg hku' hpu')
  · rcases set_cases hu' with ⟨-, rfl⟩ | ⟨-, hku'⟩
    · obtain rfl : p = _ := hpu'
      exact absurd hid.symm (h.ne_of_settling hg hju hpu)
    · exact h.apart j k u u' c c' n n' s s' r r' l l' hju hku' hpu hpu' hid

/-- The trails when an operation has gone on. -/
theorem set (h : w.Trails L trail) {trail' : String → List String} {i : Nat} {t : Task} {p : Phase}
    (ht : w.tasks[i]? = some t) (hcan : t.phase.canStep t.visitor w.engine = true)
    (hg : t.phase.Goes t.visitor w.engine p e') (hL : L.Agrees w.engine.nextSession L')
    (hnext : w.engine.nextSession ≤ e'.nextSession)
    (hsound : (⟨e', w.tasks.set i { t with phase := p }, w.published⟩ : Service).Sound L')
    (htrail : ∀ id, trail' id = trail id ++ t.phase.visited id w.engine) :
    (⟨e', w.tasks.set i { t with phase := p }, w.published⟩ : Service).Trails L' trail' := by
  have hmoving : w.engine.Sound L (t.phase.Moving (w.MovingBut i)) :=
    h.sound.engine.mono fun id => (moving_iff ht id).1
  have hfits := h.sound.tasks t (List.mem_of_getElem? ht)
  have hwalks := h.walks i t ht
  have hadvances : ∀ id, (⟨e', w.tasks.set i { t with phase := p }, w.published⟩ :
      Service).advances id = w.advances id + if p.hasAdvanced id then 1 else 0 :=
    advances_set ht (Phase.not_isFinished_of_canStep hcan)
  have hother : ∀ j, t.phase.about? ≠ some j → trail' j = trail j ∧
      (⟨e', w.tasks.set i { t with phase := p }, w.published⟩ : Service).advances j =
        w.advances j := by
    intro j hj
    refine ⟨by rw [htrail, Phase.visited_eq_nil hj, List.append_nil], ?_⟩
    rw [hadvances, if_neg fun ha => hj (hg.hasAdvanced hwalks ha).1]
    rfl
  have htreads := hg.treads hwalks hmoving hfits
  refine ⟨hsound, h.inLine.set ht hcan hg, ?_, fun id s' hget' => ?_, fun id => ?_,
    fun j u hu => ?_, fun j k u u' c c' n n' s s' r r' l l' hu hu' hpu hpu' hid =>
      h.apart_set hg hu hu' hpu hpu' hid⟩
  · cases htreads with
    | stays hnone _ =>
        have hsame : trail' = trail := funext fun id => by rw [htrail, hnone, List.append_nil]
        rw [hsame]
        exact h.traces.mono hL hnext
    | moves a b habout hvisited hissued hlinks _ _ =>
        refine (h.traces.extend hissued hlinks (by rw [htrail, hvisited]) fun j hj => ?_).mono hL
          hnext
        exact (hother j fun hc => hj (Option.some.inj (habout.symm.trans hc)).symm).1
  · cases htreads with
    | stays hnone hkeeps =>
        obtain ⟨s, hget, hnode⟩ := hkeeps id s' hget'
        rw [htrail, hnone, List.append_nil, hnode]
        exact h.rests id s hget
    | moves a b habout hvisited _ _ hown hothers =>
        by_cases hid : id = a
        · subst hid
          rw [htrail, hvisited, hown s' hget', List.getLast?_append]
          rfl
        · rw [(hother id fun hc => hid (Option.some.inj (habout.symm.trans hc)).symm).1]
          exact h.rests id s' (by rw [← hothers id hid]; exact hget')
  · rw [hadvances, htrail, List.length_append]
    have hle := h.answers id
    by_cases ha : p.hasAdvanced id = true
    · have hlength := (hg.hasAdvanced hwalks ha).2
      rw [if_pos ha]
      omega
    · rw [if_neg ha]
      omega
  · rcases set_cases hu with ⟨rfl, rfl⟩ | ⟨hji, hu⟩
    · refine (hg.walks hwalks hmoving hfits h.traces.issued h.rests h.answers htrail).congr
        fun id hid => ⟨rfl, ?_⟩
      have hnot : ¬ p.hasAdvanced id = true := by
        intro ha
        cases p with
        | finished r => cases hid
        | _ => cases ha
      rw [hadvances, if_neg hnot]
      rfl
    · refine (h.walks j u hu).congr fun id hid => hother id fun hc => hji ?_
      exact h.alone ht hcan hu hc hid

theorem proceed (h : w.Trails L trail) (i : Nat) :
    ∃ L', L.Agrees w.engine.nextSession L' ∧
      w.engine.nextSession ≤ (w.proceed i).engine.nextSession ∧
      (w.proceed i).Trails L' fun id =>
        trail id ++ noted (fun _ t e => t.phase.visited id e) w (.proceed i) := by
  obtain ⟨L', hL, hsound⟩ := h.sound.proceed i
  refine ⟨L', hL, ?_⟩
  rcases proceed_cases w i with ⟨hsame, hnote⟩ | ⟨t, p, e', ht, hcan, hstart, hg, hgoes, hnote⟩
  · rw [hsame] at hsound ⊢
    refine ⟨Nat.le_refl _, ?_⟩
    simp only [hnote, List.append_nil]
    exact { h with sound := hsound, traces := h.traces.mono hL (Nat.le_refl _) }
  · have hnext : w.engine.nextSession ≤ e'.nextSession := by
      have hmoving : w.engine.Sound L (t.phase.Moving (w.MovingBut i)) :=
        h.sound.engine.mono fun id => (moving_iff ht id).1
      rcases Phase.goesOn_step hmoving (h.sound.tasks t (List.mem_of_getElem? ht))
        (Phase.not_isFinished_of_canStep hcan) t.visitor with
        ⟨c, -, -, hstart'⟩ | ⟨-, -, p', e'', hstart', hgrows, -⟩
      · rw [hstart] at hstart'
        cases hstart'
        exact Nat.le_refl _
      · rw [hstart] at hstart'
        cases hstart'
        exact hgrows.next
    rw [hgoes] at hsound ⊢
    exact ⟨hnext, h.set ht hcan hg hL hnext hsound fun id => by rw [hnote]⟩

/-- **Trails.**  Every move takes the trails of the sessions on. -/
theorem make (h : w.Trails L trail) (m : Move) :
    ∃ L', L.Agrees w.engine.nextSession L' ∧
      w.engine.nextSession ≤ (w.make m).engine.nextSession ∧
      (w.make m).Trails L' fun id =>
        trail id ++ noted (fun _ t e => t.phase.visited id e) w m := by
  have hat : ∀ {op : Operation}, (∀ c, op ≠ .create c) → (w.perform op).InLine →
      Phase.KeepsNodes w.engine (w.perform op).engine →
      ∃ L', L.Agrees w.engine.nextSession L' ∧
        w.engine.nextSession ≤ (w.perform op).engine.nextSession ∧
        (w.perform op).Trails L' fun id => trail id ++ [] := by
    intro op hop hline hkeeps
    obtain ⟨L', hL, hsound⟩ := h.sound.perform op
    simp only [List.append_nil]
    rcases Operation.perform_cases h.sound.engine op with ⟨c, rfl, -⟩ | ⟨L'', hL'', -, hsafe⟩
    · exact absurd rfl (hop c)
    · exact ⟨L', hL, hsafe.grows.next, h.of_engine hL hsafe.grows.next hsound hline hkeeps⟩
  cases m with
  | turnClock now => exact hat nofun (h.inLine.make (.turnClock now)) (Phase.keepsNodes_of_store rfl)
  | publish f =>
      exact hat nofun (h.inLine.make (.publish f))
        (Phase.keepsNodes_of_store (store_publish f w.engine))
  | drop retention now =>
      refine hat nofun (h.inLine.make (.drop retention now)) fun id s hget => ?_
      obtain ⟨hmem, hid⟩ := KeyedList.find?_eq_some_iff.1 hget
      exact ⟨s, KeyedList.find?_eq_some_iff.2 ⟨(List.mem_filter.1 hmem).1, hid⟩, rfl⟩
  | begin call =>
      refine ⟨L, .refl _ L, Nat.le_refl _, ?_⟩
      simp only [noted, List.append_nil]
      exact h.begin call
  | proceed i => exact h.proceed i

/-- Runs take the trails of the sessions on. -/
theorem after (h : w.Trails L trail) (ms : List Move) :
    ∃ L', L.Agrees w.engine.nextSession L' ∧
      w.engine.nextSession ≤ (w.after ms).engine.nextSession ∧
      (w.after ms).Trails L' fun id => trail id ++ w.trail id ms := by
  induction ms generalizing w L trail with
  | nil =>
      refine ⟨L, .refl _ L, Nat.le_refl _, ?_⟩
      simp only [Service.trail, log, List.append_nil]
      exact h
  | cons m ms ih =>
      obtain ⟨L₁, hL₁, hnext₁, h₁⟩ := h.make m
      obtain ⟨L', hL', hnext', h'⟩ := ih h₁
      refine ⟨L', hL₁.trans hL' hnext₁, Nat.le_trans hnext₁ hnext', ?_⟩
      simp only [Service.trail, log, ← List.append_assoc]
      exact h'

end Trails

/-- No session has been anywhere in a service that has seen nothing. -/
theorem trails_fresh (settings : Settings) (sink : Option Sink) (executor : Option Executor)
    (now : Instant) (pin : String → Flow) :
    (fresh settings sink executor now).Trails ⟨pin, fun _ => ∅⟩ fun _ => [] where
  sound := sound_fresh settings sink executor now pin
  inLine := inLine_fresh settings sink executor now
  traces := ⟨fun _ hne => absurd rfl hne, fun _ => List.isChain_nil, fun _ _ ha => by cases ha⟩
  rests := fun _ _ hget => by cases hget
  answers := fun _ => Nat.le_refl _
  walks := fun _ _ ht => by cases ht
  apart := fun _ _ _ _ _ _ _ _ _ _ _ _ _ _ ht => by cases ht

end Service

end UssdFlows
