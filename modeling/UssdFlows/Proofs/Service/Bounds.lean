import UssdFlows.Proofs.Service.Trails

/-!
# Sessions are bounded by their flows

A turn performs two stages at each node where it goes on by itself, one to have
the node interpreted and one to move, and a few more where it begins and ends.
What it *costs* falls with each stage, and is no more than twice the number of
nodes of its flow and one at the start; the stages that an operation has
performed make up for the cost that has gone (`Phase.Paces`).

Together with the trails of the sessions this bounds all that can happen to a
session in any run by the number of nodes of its flow
(`Service.bounded_by_flow`).
-/

namespace UssdFlows

open EngineM

variable {L L' : Ledger} {others : String → Prop} {e e' : Engine} {v : Visitor}

/-! ## Stages of turns -/

namespace Phase

/-- The stage that an operation performs when it goes on, if it begins one. -/
def staged : Phase → List (Turn × Stage)
  | playing _ _ (_ + 1) σ t => [(t, σ)]
  | _ => []

/-- What an operation has performed and what its turn still costs come to no more
than twice the number of nodes and one. -/
def Paces (xs : List (Turn × Stage)) : Phase → Prop
  | playing _ _ _ σ t =>
    (∀ x ∈ xs, x.1.sessionId = t.sessionId) ∧ xs.length + t.cost σ ≤ 2 * t.flow.size + 1
  | acting _ _ _ _ t =>
    (∀ x ∈ xs, x.1.sessionId = t.sessionId) ∧ xs.length + t.cost .dispatch ≤ 2 * t.flow.size + 2
  | finished _ => ∀ x ∈ xs, xs.length ≤ 2 * x.1.flow.size + 1
  | _ => xs = []

variable {p p' : Phase} {xs : List (Turn × Stage)} {purpose : Purpose} {lock left : Nat}
  {σ : Stage} {t : Turn} {r : Except EngineError Turn}

/-- The stages of a turn that goes on are of one session, and the stage that is
performed is among them. -/
theorem Plays.paces (hp : Plays e p purpose lock left σ t r e') (h : p.Paces xs)
    (hf : p.Fits L e) :
    (∀ x ∈ xs ++ p.staged, x.1.sessionId = t.sessionId) ∧
      (xs ++ p.staged).length + t.cost σ ≤ 2 * t.flow.size + 2 := by
  have hone : ∀ {x : Turn × Stage} {σ' : Stage}, (∀ x ∈ xs, x.1.sessionId = t.sessionId) →
      x ∈ xs ++ [(t, σ')] → x.1.sessionId = t.sessionId := by
    intro x σ' hall hx
    rcases List.mem_append.1 hx with hx | hx
    · exact hall x hx
    · rw [List.mem_singleton.1 hx]
  cases hp with
  | exhausted => exact absurd (t.cost_pos σ) (Nat.not_lt.2 hf.2)
  | answered _ =>
      rw [show (acting purpose lock left _ t).staged = [] from rfl, List.append_nil]
      exact h
  | _ =>
      obtain ⟨hall, hlength⟩ := h
      rw [staged, List.length_append, List.length_singleton]
      exact ⟨fun x hx => hone hall hx, by omega⟩

theorem Plays.staged_pinned (hp : Plays e p purpose lock left σ t r e')
    (hf : t.Fits L e.nextSession σ) :
    ∀ x ∈ p.staged, IsIssued e.nextSession x.1.sessionId ∧ x.1.flow = L.pin x.1.sessionId := by
  have hturn : IsIssued e.nextSession t.sessionId ∧ t.flow = L.pin t.sessionId :=
    ⟨hf.issued, hf.flow⟩
  intro x hx
  cases hp with
  | exhausted => cases hx
  | answered _ => cases hx
  | _ =>
      rw [List.mem_singleton.1 hx]
      exact hturn

/-- Going on with an operation keeps its pace: whatever stages it performs are of
one session, in the flow that the session is pinned to. -/
theorem Goes.paces (hg : Goes v e p p' e') (h : p.Paces xs) (hs : e.Sound L (p.Moving others))
    (hf : p.Fits L e) (hf' : p'.Fits L' e') (hpin : ∀ x ∈ xs, x.1.flow = L.pin x.1.sessionId) :
    p'.Paces (xs ++ p.staged) ∧
      ∀ x ∈ p.staged, IsIssued e.nextSession x.1.sessionId ∧ x.1.flow = L.pin x.1.sessionId := by
  -- where no stage was performed before, a turn may begin
  have hbegins : ∀ {t : Turn} {purpose : Purpose} {lock left : Nat} {σ : Stage}, xs = [] →
      t.Fits L' e'.nextSession σ → (playing purpose lock left σ t).Paces (xs ++ []) := by
    rintro t purpose lock left σ rfl hfits
    refine ⟨fun x hx => absurd hx List.not_mem_nil, ?_⟩
    rw [List.append_nil, List.length_nil, Nat.zero_add]
    exact hfits.cost_le_size
  have hnone : ∀ r, xs = [] → (finished r).Paces (xs ++ []) := by
    rintro r rfl x hx
    cases hx
  have hidle : ∀ x ∈ ([] : List (Turn × Stage)), IsIssued e.nextSession x.1.sessionId ∧
      x.1.flow = L.pin x.1.sessionId := fun x hx => absurd hx List.not_mem_nil
  cases hg with
  | unserved _ => exact ⟨hnone _ h, hidle⟩
  | calls _ => exact ⟨(List.append_nil xs).trans h, hidle⟩
  | asks _ => exact ⟨(List.append_nil xs).trans h, hidle⟩
  | opens _ => exact ⟨(List.append_nil xs).trans h, hidle⟩
  | resumes _ _ _ => exact ⟨hnone _ h, hidle⟩
  | stores _ => exact ⟨hbegins h hf'.1, hidle⟩
  | drops _ _ => exact ⟨hnone _ h, hidle⟩
  | admits _ => exact ⟨hbegins h hf'.1, hidle⟩
  | refuses _ _ _ => exact ⟨hnone _ h, hidle⟩
  | ends _ _ => exact ⟨hnone _ h, hidle⟩
  | lapses _ _ => exact ⟨hnone _ h, hidle⟩
  | strays => exact ⟨hnone _ h, hidle⟩
  | @waits purpose lock left t pending _ _ =>
      obtain ⟨hall, hlength⟩ := h
      refine ⟨⟨fun x hx => ?_, ?_⟩, fun x hx => ?_⟩
      · rcases List.mem_append.1 hx with hx | hx
        · exact hall x hx
        · rw [List.mem_singleton.1 hx]
      · rw [staged, List.length_append, List.length_singleton]
        omega
      · rw [List.mem_singleton.1 hx]
        exact ⟨hf.1.issued, hf.1.flow⟩
  | @continues _ purpose lock left σ t t' σ' _ hplays hn =>
      obtain ⟨hall, hlength⟩ := hplays.paces h hf
      obtain ⟨hfits, hleaves⟩ := hplays.leaves hs hf
      have hcost : t'.cost σ' < t.cost σ := by
        have hready := hleaves.2
        rw [hn] at hready
        exact hready.2.2
      have hcontinues := hplays.continues
      refine ⟨⟨fun x hx => (hall x hx).trans hcontinues.sessionId.symm, ?_⟩,
        hplays.staged_pinned hfits⟩
      rw [hcontinues.flow]
      omega
  | @concludes _ purpose lock left σ t r out _ _ hplays _ _ _ =>
      obtain ⟨hall, hlength⟩ := hplays.paces h hf
      have hfits := (hplays.leaves hs hf).1
      have hstaged := hplays.staged_pinned hfits
      refine ⟨fun x hx => ?_, hstaged⟩
      have hflow : x.1.flow = t.flow := by
        rw [hfits.flow, ← hall x hx]
        rcases List.mem_append.1 hx with hx | hx
        · exact hpin x hx
        · exact (hstaged x hx).2
      have hpos := t.cost_pos σ
      rw [hflow]
      omega

end Phase

/-! ## Stages in runs -/

namespace Service

/-- The stages that the operation at some place has performed, with the turn that
each was performed on. -/
def stages (w : Service) (i : Nat) (ms : List Move) : List (Turn × Stage) :=
  w.log (fun j t _ => if j = i then t.phase.staged else []) ms

variable {w : Service} {trail : String → List String} {stages : Nat → List (Turn × Stage)}

/-- The trails of all sessions are walks, and every operation keeps its pace. -/
structure Paced (L : Ledger) (w : Service) (trail : String → List String)
    (stages : Nat → List (Turn × Stage)) : Prop where
  trails : w.Trails L trail
  paces : ∀ (i : Nat) (t : Task), w.tasks[i]? = some t → t.phase.Paces (stages i)
  absent : ∀ i : Nat, w.tasks[i]? = none → stages i = []
  pinned : ∀ i, ∀ x ∈ stages i, IsIssued w.engine.nextSession x.1.sessionId ∧
    x.1.flow = L.pin x.1.sessionId

namespace Paced

/-- An operation performs no more stages than its flow allows. -/
theorem length_le (h : w.Paced L trail stages) {i : Nat} {x : Turn × Stage} (hx : x ∈ stages i) :
    (stages i).length ≤ 2 * x.1.flow.size + 1 := by
  cases ht : w.tasks[i]? with
  | none =>
      rw [h.absent i ht] at hx
      cases hx
  | some t =>
      have hpaces := h.paces i t ht
      have hfits := h.trails.sound.tasks t (List.mem_of_getElem? ht)
      have hflow := (h.pinned i x hx).2
      cases hp : t.phase with
      | playing purpose lock left σ turn =>
          rw [hp] at hpaces hfits
          rw [hpaces.1 x hx, ← hfits.1.flow] at hflow
          have hpos := turn.cost_pos σ
          have hlength := hpaces.2
          rw [hflow]
          omega
      | acting purpose lock left pending turn =>
          rw [hp] at hpaces hfits
          rw [hpaces.1 x hx, ← hfits.1.flow] at hflow
          have hpos := turn.cost_pos .dispatch
          have hlength := hpaces.2
          rw [hflow]
          omega
      | finished r =>
          rw [hp] at hpaces
          exact hpaces x hx
      | _ =>
          rw [hp] at hpaces
          rw [show stages i = [] from hpaces] at hx
          cases hx

/-- A move that no operation makes leaves the paces as they are. -/
theorem of_tasks (h : w.Paced L trail stages) {w' : Service} {trail' : String → List String}
    (hL : L.Agrees w.engine.nextSession L') (hnext : w.engine.nextSession ≤ w'.engine.nextSession)
    (htrails : w'.Trails L' trail') (htasks : w'.tasks = w.tasks) :
    w'.Paced L' trail' stages where
  trails := htrails
  paces := fun i t ht => h.paces i t (htasks ▸ ht)
  absent := fun i ht => h.absent i (htasks ▸ ht)
  pinned := fun i x hx => by
    obtain ⟨hissued, hflow⟩ := h.pinned i x hx
    exact ⟨hissued.mono hnext, hflow.trans (hL _ hissued).1.symm⟩

theorem set (h : w.Paced L trail stages) {trail' : String → List String} {i : Nat} {t : Task}
    {p : Phase} (ht : w.tasks[i]? = some t) (hg : t.phase.Goes t.visitor w.engine p e')
    (hL : L.Agrees w.engine.nextSession L') (hnext : w.engine.nextSession ≤ e'.nextSession)
    (htrails : (⟨e', w.tasks.set i { t with phase := p }, w.published⟩ : Service).Trails L' trail') :
    (⟨e', w.tasks.set i { t with phase := p }, w.published⟩ : Service).Paced L' trail'
      fun j => stages j ++ if i = j then t.phase.staged else [] := by
  have hmoving : w.engine.Sound L (t.phase.Moving (w.MovingBut i)) :=
    h.trails.sound.engine.mono fun id => (moving_iff ht id).1
  have hfits := h.trails.sound.tasks t (List.mem_of_getElem? ht)
  have hfits' := htrails.sound.tasks _ ((mem_set_iff ht).2 (Or.inl rfl))
  obtain ⟨hpaces, hstaged⟩ :=
    hg.paces (h.paces i t ht) hmoving hfits hfits' fun x hx => (h.pinned i x hx).2
  refine ⟨htrails, fun j u hu => ?_, fun j hj => ?_, fun j x hx => ?_⟩
  · rcases set_cases hu with ⟨rfl, rfl⟩ | ⟨hji, hu⟩
    · rw [if_pos rfl]
      exact hpaces
    · rw [if_neg (Ne.symm hji), List.append_nil]
      exact h.paces j u hu
  · have hlength : (w.tasks.set i { t with phase := p }).length ≤ j := List.getElem?_eq_none_iff.1 hj
    rw [List.length_set] at hlength
    have hij : i ≠ j := by
      rintro rfl
      rw [List.getElem?_eq_none hlength] at ht
      cases ht
    rw [if_neg hij, List.append_nil]
    exact h.absent j (List.getElem?_eq_none hlength)
  · have hx' : IsIssued w.engine.nextSession x.1.sessionId ∧ x.1.flow = L.pin x.1.sessionId := by
      rcases List.mem_append.1 hx with hx | hx
      · exact h.pinned j x hx
      · split at hx
        · exact hstaged x hx
        · cases hx
    exact ⟨hx'.1.mono hnext, hx'.2.trans (hL _ hx'.1).1.symm⟩

/-- **Pace.**  Every move keeps the trails of the sessions and the paces of the
operations. -/
theorem make (h : w.Paced L trail stages) (m : Move) :
    ∃ L', L.Agrees w.engine.nextSession L' ∧
      w.engine.nextSession ≤ (w.make m).engine.nextSession ∧
      (w.make m).Paced L' (fun id => trail id ++ noted (fun _ t e => t.phase.visited id e) w m)
        fun i => stages i ++ noted (fun j t _ => if j = i then t.phase.staged else []) w m := by
  obtain ⟨L', hL, hnext, htrails⟩ := h.trails.make m
  refine ⟨L', hL, hnext, ?_⟩
  have hstays : (w.make m).tasks = w.tasks →
      (∀ i, noted (fun j t _ => if j = i then t.phase.staged else []) w m = []) →
      (w.make m).Paced L' (fun id => trail id ++ noted (fun _ t e => t.phase.visited id e) w m)
        fun i => stages i ++ noted (fun j t _ => if j = i then t.phase.staged else []) w m := by
    intro htasks hnone
    simp only [hnone, List.append_nil]
    exact h.of_tasks hL hnext htrails htasks
  cases m with
  | turnClock now => exact hstays rfl fun _ => rfl
  | publish f => exact hstays rfl fun _ => rfl
  | drop retention now => exact hstays rfl fun _ => rfl
  | begin call =>
      simp only [noted, List.append_nil] at htrails ⊢
      refine ⟨htrails, fun i t ht => ?_, fun i ht => h.absent i ?_, fun i x hx => ?_⟩
      · rcases begin_cases ht with ht | ⟨rfl, rfl⟩
        · exact h.paces i t ht
        · exact h.absent _ (List.getElem?_eq_none (Nat.le_refl _))
      · cases ht' : w.tasks[i]? with
        | none => rfl
        | some t =>
            obtain ⟨hi, -⟩ := List.getElem?_eq_some_iff.1 ht'
            have hkept : (w.tasks ++ [(⟨w.tasks.length + 1, .ready call⟩ : Task)])[i]? = none := ht
            rw [List.getElem?_append_left hi, ht'] at hkept
            cases hkept
      · obtain ⟨hissued, hflow⟩ := h.pinned i x hx
        exact ⟨hissued, hflow.trans (hL _ hissued).1.symm⟩
  | proceed i =>
      rcases proceed_cases w i with ⟨hsame, hnote⟩ | ⟨t, p, e', ht, -, -, hg, hgoes, hnote⟩
      · exact hstays (congrArg Service.tasks hsame) fun _ => hnote _
      · have hmade : w.make (.proceed i) =
            { w with engine := e', tasks := w.tasks.set i { t with phase := p } } := hgoes
        rw [hmade] at htrails hnext ⊢
        simp only [hnote] at htrails ⊢
        exact h.set ht hg hL hnext htrails

/-- Runs keep the trails of the sessions and the paces of the operations. -/
theorem after (h : w.Paced L trail stages) (ms : List Move) :
    ∃ L', L.Agrees w.engine.nextSession L' ∧
      w.engine.nextSession ≤ (w.after ms).engine.nextSession ∧
      (w.after ms).Paced L' (fun id => trail id ++ w.trail id ms)
        fun i => stages i ++ w.stages i ms := by
  induction ms generalizing w L trail stages with
  | nil =>
      refine ⟨L, .refl _ L, Nat.le_refl _, ?_⟩
      simp only [Service.trail, Service.stages, log, List.append_nil]
      exact h
  | cons m ms ih =>
      obtain ⟨L₁, hL₁, hnext₁, h₁⟩ := h.make m
      obtain ⟨L', hL', hnext', h'⟩ := ih h₁
      refine ⟨L', hL₁.trans hL' hnext₁, Nat.le_trans hnext₁ hnext', ?_⟩
      simp only [Service.trail, Service.stages, log, ← List.append_assoc]
      exact h'

end Paced

theorem paced_fresh (settings : Settings) (sink : Option Sink) (executor : Option Executor)
    (now : Instant) (pin : String → Flow) :
    (fresh settings sink executor now).Paced ⟨pin, fun _ => ∅⟩ (fun _ => []) fun _ => [] where
  trails := trails_fresh settings sink executor now pin
  paces := fun _ _ ht => by cases ht
  absent := fun _ _ => rfl
  pinned := fun _ _ hx => by cases hx

/-- What a flow allows to a session of it during a run: the nodes that the session
is at are a walk from the start, which ends where the session rests and passes no
node twice; so there are fewer moves, and fewer answered inputs, than nodes; and
every turn ends within twice the number of nodes and one stages, below the limit. -/
structure Bounded (w : Service) (ms : List Move) (id : String) (f : Flow) : Prop where
  starts : (w.trail id ms).head? = some f.startNode
  walks : (w.trail id ms).IsChain f.Edge
  rests : ∀ s, (w.after ms).engine.store.get? id = some s →
    (w.trail id ms).getLast? = s.currentNode
  nodup : (w.trail id ms).Nodup
  moves : (w.trail id ms).length ≤ f.size
  advances : (w.after ms).advances id + 1 ≤ f.size
  stages : ∀ i, ∀ x ∈ w.stages i ms, x.1.sessionId = id →
    x.1.flow = f ∧ (w.stages i ms).length ≤ 2 * f.size + 1
  limit : 2 * f.size + 1 < Turn.stageLimit f

theorem bounded_of_paced {ms : List Move} {id : String}
    (h : (w.after ms).Paced L (fun id => w.trail id ms) fun i => w.stages i ms)
    (hwf : (L.pin id).WellFormed) (hne : w.trail id ms ≠ []) : w.Bounded ms id (L.pin id) := by
  have hstart : (w.trail id ms).head? = some (L.pin id).startNode := by
    obtain ⟨a, ha⟩ := Option.ne_none_iff_exists'.1 (mt List.head?_eq_none_iff.1 hne)
    rw [ha, h.trails.traces.start id a ha]
  have hwalk := hwf.acyclic.walk (h.trails.traces.chain id)
  have hlength : (w.trail id ms).length ≤ (L.pin id).size := by
    have hrank := Flow.rank_lt_size hwf.acyclic hwf.start_exists
    have hle := (hwalk.2 _ hstart).1
    omega
  refine ⟨hstart, h.trails.traces.chain id, h.trails.rests id, hwalk.1, hlength, ?_, ?_, ?_⟩
  · have hle := h.trails.answers id
    have hpos := List.length_pos_iff.2 hne
    omega
  · intro i x hx hid
    have hflow := (h.pinned i x hx).2
    rw [hid] at hflow
    exact ⟨hflow, hflow ▸ h.length_le hx⟩
  · rw [Turn.stageLimit]
    omega

/-- **Bounded by the flow.**  In every run, a session that is stored at some time
is bounded throughout by the version of a flow that it is pinned to, and that
version is valid. -/
theorem bounded_by_flow (settings : Settings) (sink : Option Sink) (executor : Option Executor)
    (now : Instant) (before later : List Move) {id : String} {s : Session}
    (hget : ((fresh settings sink executor now).after before).engine.store.get? id = some s) :
    ∃ f, ((fresh settings sink executor now).after before).engine.registry.version? s.flowId
        s.flowVersion = some f ∧ (∀ limits, (f.report limits).isValid = true) ∧
      (fresh settings sink executor now).Bounded (before ++ later) id f := by
  obtain ⟨L, -, -, h⟩ := (paced_fresh settings sink executor now fun _ => .blank).after before
  obtain ⟨L', hL', -, h'⟩ := h.after later
  have hid : s.id = id := KeyedList.key_of_find? hget
  subst hid
  have hplaced := h.trails.sound.engine.placed s.id s hget
  have hwf : (L.pin s.id).WellFormed :=
    h.trails.sound.engine.registry.validated _ (Registry.mem_of_version? hplaced.pinned)
  refine ⟨L.pin s.id, hplaced.pinned, fun limits => Flow.isValid_iff_wellFormed.2 hwf, ?_⟩
  have hpin : L'.pin s.id = L.pin s.id := (hL' s.id hplaced.issued).1
  have hne : (fresh settings sink executor now).trail s.id (before ++ later) ≠ [] := by
    have hlast : ((fresh settings sink executor now).trail s.id before).getLast? = s.currentNode :=
      h.trails.rests s.id s hget
    obtain ⟨n, hnode, -⟩ := hplaced.resting
    intro hnil
    rw [Service.trail, log_append, List.append_eq_nil_iff] at hnil
    rw [Service.trail, hnil.1, hnode] at hlast
    cases hlast
  rw [← hpin]
  refine bounded_of_paced ?_ (hpin ▸ hwf) hne
  simp only [List.nil_append, ← after_append] at h'
  have htrail : ∀ id, (fresh settings sink executor now).trail id before ++
      ((fresh settings sink executor now).after before).trail id later =
        (fresh settings sink executor now).trail id (before ++ later) :=
    fun id => (log_append _ _ before later).symm
  have hstages : ∀ i, (fresh settings sink executor now).stages i before ++
      ((fresh settings sink executor now).after before).stages i later =
        (fresh settings sink executor now).stages i (before ++ later) :=
    fun i => (log_append _ _ before later).symm
  simp only [htrail, hstages] at h'
  exact h'

/-- A flow is published whose start is a conditional, and a session of it is
started and stored. -/
def greeting : List Move :=
  [.publish .greeting, .begin (.create ⟨"greeting", "555", "*1#"⟩), .proceed 0, .proceed 0,
    .proceed 0]

/-- The session passes the conditional and comes to rest behind it: it has been at
both nodes of the flow, and can go nowhere else. -/
theorem bounded_greeting :
    ∃ s f, ((fresh .standard none none ⟨0, by decide⟩).after greeting).engine.store.get?
        (sessionId 1) = some s ∧
      (fresh .standard none none ⟨0, by decide⟩).Bounded
        (greeting ++ [.proceed 0, .proceed 0, .proceed 0]) (sessionId 1) f ∧
      (fresh .standard none none ⟨0, by decide⟩).trail (sessionId 1)
        (greeting ++ [.proceed 0, .proceed 0, .proceed 0]) = ["known", "ask"] := by
  have hstored : (((fresh .standard none none ⟨0, by decide⟩).after greeting).engine.store.get?
      (sessionId 1)).isSome = true := by decide +kernel
  have htrail : (fresh .standard none none ⟨0, by decide⟩).trail (sessionId 1)
      (greeting ++ [.proceed 0, .proceed 0, .proceed 0]) = ["known", "ask"] := by decide +kernel
  obtain ⟨s, hget⟩ := Option.isSome_iff_exists.1 hstored
  obtain ⟨f, -, -, hbounded⟩ := bounded_by_flow .standard none none ⟨0, by decide⟩ greeting
    [.proceed 0, .proceed 0, .proceed 0] hget
  exact ⟨s, f, hget, hbounded, htrail⟩

end Service

end UssdFlows
