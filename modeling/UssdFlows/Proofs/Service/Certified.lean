import UssdFlows.Proofs.Service.Phases

/-!
# Runs of certified flows

Flows are examined once, when they are published, and never again while
sessions walk through them.  This file shows that once is enough: however
operations are mixed, every stored session is pinned to a flow that is valid
and rests at one of its nodes, and no operation ever misses a node, a flow that
was published, or the end of a turn (`Service.Reachable.certified`).

The invariant is `Service.Sound`: the engine is sound, every operation in
progress fits, and what was published is stored.  Each step keeps it
(`Service.Sound.step`), and so does every run (`Service.Reachable.sound`).
-/

namespace UssdFlows

open EngineM

variable {L : Ledger} {others : String → Prop} {e e' : Engine}

/-! ## Whole operations -/

/-- Whatever was published is stored under its id. -/
def Registry.Holds (r : Registry) (published : List Flow) : Prop :=
  ∀ f ∈ published, ∃ g ∈ r.versions.items, g.id = f.id

theorem Engine.Grows.holds {published : List Flow} (hg : e.Grows e')
    (h : e.registry.Holds published) : e'.registry.Holds published := by
  intro f hf
  obtain ⟨g, hmem, hid⟩ := h f hf
  exact ⟨g, hg.versions g hmem, hid⟩

namespace Operation

theorem safe_discarding {α : Type} {asks : Prop} {x : EngineM α} (h : Safe L others asks x e) :
    Safe L others asks (do let _ ← x) e :=
  h.bind fun _ _ _ hs => safe_pure () hs

/-- **Operations.**  Performing an operation leaves the engine sound, perhaps with
the flow of one more session put down.  Only a caller of a flow that is not
being served is sent away by a fault. -/
theorem perform_cases (h : e.Sound L others) (op : Operation) :
    (∃ c, op = .create c ∧ e.registry.get? c.flowId = none ∧
        op.perform.start e = (.error (.flowNotFound c.flowId none), e)) ∨
      ∃ L', L.Agrees e.nextSession L' ∧ L'.behind = L.behind ∧
        Safe L' others op.IsInput op.perform e := by
  cases op with
  | turnClock now =>
      have hgrows : e.Grows { e with now } := ⟨fun g hg => hg, Nat.le_refl _, rfl⟩
      refine Or.inr ⟨L, .refl _ L, rfl, safe_of_ok rfl hgrows ?_ fun _ => rfl⟩
      exact ⟨h.replaced, h.registry, fun id s hget => (h.placed id s hget).mono hgrows (.refl _ L)
        fun hm => hm, h.fresh⟩
  | publish f => exact Or.inr ⟨L, .refl _ L, rfl, safe_discarding (safe_publishFlow h f)⟩
  | create c =>
      rcases safe_createSession h c with ⟨hnone, hstart⟩ | ⟨f, -, hsafe⟩
      · exact Or.inl ⟨c, rfl, hnone, start_bind_of_error hstart⟩
      · exact Or.inr ⟨_, L.agrees_pinned _ f, rfl, safe_discarding hsafe⟩
  | input id text => exact Or.inr ⟨L, .refl _ L, rfl, safe_discarding (safe_anyInput h id text)⟩
  | terminate id reason =>
      exact Or.inr ⟨L, .refl _ L, rfl, safe_discarding (safe_terminateSession h id reason)⟩
  | expire id now =>
      exact Or.inr ⟨L, .refl _ L, rfl, safe_discarding (safe_expireSession h id now)⟩
  | sweep retention now =>
      exact Or.inr ⟨L, .refl _ L, rfl, safe_discarding (safe_sweep h retention now)⟩
  | drop retention now =>
      exact Or.inr ⟨L, .refl _ L, rfl, safe_of_ok rfl ⟨fun g hg => hg, Nat.le_refl _, rfl⟩
        (h.dropStale retention now) fun _ => rfl⟩

/-- What was published stays stored, and a flow that is published is stored. -/
theorem holds_publishedAfter (h : e.Sound L others) (op : Operation) {published : List Flow}
    (hp : e.registry.Holds published) (hg : e.Grows (op.perform.start e).2) :
    (op.perform.start e).2.registry.Holds
      (Service.publishedAfter published op (op.perform.start e).1) := by
  have hkeep := hg.holds hp
  cases op with
  | publish f =>
      obtain ⟨report, e₁, hexamine, halike, limits, rfl⟩ := start_examine f e
      cases hv : (f.report limits).isValid with
      | false =>
          have hstart : (Operation.publish f).perform.start e =
              (.error (.invalidFlow (f.report limits)), e₁) := by
            refine start_bind_of_error ?_
            rw [publishFlow, start_bind_of_ok hexamine, hv]
            rfl
          rw [hstart] at hkeep ⊢
          exact hkeep
      | true =>
          have hpublish : (publishFlow f).start e = (.ok (e₁.registry.publish f).1,
              { e₁ with registry := (e₁.registry.publish f).2 }) := by
            rw [publishFlow, start_bind_of_ok hexamine, hv]
            rfl
          have hstart : (Operation.publish f).perform.start e =
              (.ok (), { e₁ with registry := (e₁.registry.publish f).2 }) :=
            start_bind_of_ok hpublish
          rw [hstart] at hkeep ⊢
          intro g hmem
          rcases List.mem_cons.1 hmem with rfl | hmem
          · have hstored := ((halike.sound h).registry.rising.mem_publish (f := g)).2 (Or.inl rfl)
            exact ⟨_, hstored, Registry.id_numbered e₁.registry g⟩
          · exact hkeep g hmem
  | _ => exact hkeep

end Operation

/-! ## The invariant of the service -/

namespace Service

/-- The sessions that some operation in progress carries on. -/
def Moving (w : Service) (id : String) : Prop := ∃ t ∈ w.tasks, t.phase.Carries id

/-- The engine is sound, every operation in progress fits, and what was published
is stored. -/
structure Sound (L : Ledger) (w : Service) : Prop where
  engine : w.engine.Sound L w.Moving
  tasks : ∀ t ∈ w.tasks, t.phase.Fits L w.engine
  published : w.engine.registry.Holds w.published

variable {w w' : Service}

theorem sound_of_grows {L' : Ledger} (h : w.Sound L) {e' : Engine} {published : List Flow}
    (hL : L.Agrees w.engine.nextSession L') (hg : w.engine.Grows e') (hs : e'.Sound L' w.Moving)
    (hp : e'.registry.Holds published) :
    (⟨e', w.tasks, published⟩ : Service).Sound L' where
  engine := hs
  tasks := fun t ht => (h.tasks t ht).mono hg hL
  published := hp

theorem Sound.perform (h : w.Sound L) (op : Operation) :
    ∃ L', L.Agrees w.engine.nextSession L' ∧ (w.perform op).Sound L' := by
  rcases Operation.perform_cases h.engine op with ⟨c, rfl, -, hstart⟩ | ⟨L', hL, -, hsafe⟩
  · refine ⟨L, .refl _ L, ?_⟩
    rw [Service.perform, hstart]
    exact h
  · refine ⟨L', hL, sound_of_grows h hL hsafe.grows hsafe.sound ?_⟩
    exact Operation.holds_publishedAfter h.engine op h.published hsafe.grows

theorem Sound.begin (h : w.Sound L) (call : Call) : (w.begin call).Sound L where
  engine := h.engine.mono fun _ ⟨t, ht, hc⟩ => ⟨t, List.mem_append_left _ ht, hc⟩
  tasks := fun t ht => by
    rcases List.mem_append.1 ht with ht | ht
    · exact h.tasks t ht
    · rw [List.mem_singleton] at ht
      subst ht
      trivial
  published := h.published

/-- Replacing one task changes what is carried on by that task only. -/
theorem mem_set_iff {i : Nat} {t t' u : Task} (ht : w.tasks[i]? = some t) :
    u ∈ w.tasks.set i t' ↔ u = t' ∨ ∃ j, j ≠ i ∧ w.tasks[j]? = some u := by
  obtain ⟨hi, -⟩ := List.getElem?_eq_some_iff.1 ht
  rw [List.mem_iff_getElem?]
  constructor
  · rintro ⟨j, hj⟩
    rw [List.getElem?_set] at hj
    split at hj
    · exact Or.inl (Option.some.inj hj).symm
    · rename_i hij
      exact Or.inr ⟨j, fun hji => hij hji.symm, hj⟩
  · rintro (rfl | ⟨j, hji, hj⟩)
    · exact ⟨i, by rw [List.getElem?_set, if_pos rfl, if_pos hi]⟩
    · exact ⟨j, by rw [List.getElem?_set, if_neg fun hij => hji hij.symm, hj]⟩

/-- The sessions that the other tasks carry on. -/
def MovingBut (w : Service) (i : Nat) (id : String) : Prop :=
  ∃ j u, j ≠ i ∧ w.tasks[j]? = some u ∧ u.phase.Carries id

theorem moving_iff {i : Nat} {t : Task} (ht : w.tasks[i]? = some t) (id : String) :
    w.Moving id ↔ t.phase.Moving (w.MovingBut i) id := by
  constructor
  · rintro ⟨u, hu, hc⟩
    obtain ⟨j, hj⟩ := List.mem_iff_getElem?.1 hu
    by_cases hji : j = i
    · subst hji
      rw [ht] at hj
      cases hj
      exact Or.inr hc
    · exact Or.inl ⟨j, u, hji, hj, hc⟩
  · rintro (⟨j, u, -, hj, hc⟩ | hc)
    · exact ⟨u, List.mem_of_getElem? hj, hc⟩
    · exact ⟨t, List.mem_of_getElem? ht, hc⟩

/-- What going on with a task comes to. -/
theorem step_cases {i : Nat} {t : Task} (h : w.Sound L) (ht : w.tasks[i]? = some t) :
    t.step w.engine = (t, w.engine) ∨
      (∃ c, t.phase = .ready (.create c) ∧ w.engine.registry.get? c.flowId = none ∧
        t.step w.engine =
          ({ t with phase := .finished (.error (.flowNotFound c.flowId none)) }, w.engine)) ∨
      ∃ L' p e', L.Agrees w.engine.nextSession L' ∧
        t.step w.engine = ({ t with phase := p }, e') ∧ w.engine.Grows e' ∧
        e'.Sound L' (p.Moving (w.MovingBut i)) ∧ p.Fits L' e' ∧
        ∀ err, p = .finished (.error err) → ¬ err.IsFault := by
  rw [Task.step]
  by_cases hcan : t.phase.canStep t.visitor w.engine = true
  · rw [if_pos hcan]
    have hopen : t.phase.isFinished = false := by
      rw [Phase.canStep, Bool.and_eq_true, Bool.not_eq_true'] at hcan
      exact hcan.1
    have hsound : w.engine.Sound L (t.phase.Moving (w.MovingBut i)) :=
      h.engine.mono fun id => (moving_iff ht id).1
    have hfits := h.tasks t (List.mem_of_getElem? ht)
    rcases Phase.goesOn_step hsound hfits hopen t.visitor with
      ⟨c, hready, hnone, hstart⟩ | ⟨L', hL, p, e', hstart, hgoes⟩
    · exact Or.inr (Or.inl ⟨c, hready, hnone, by rw [hstart]⟩)
    · exact Or.inr (Or.inr ⟨L', p, e', hL, by rw [hstart], hgoes⟩)
  · exact Or.inl (if_neg hcan)

/-- The service after a task has gone on to a phase that fits. -/
theorem sound_set {L' : Ledger} {i : Nat} {t : Task} {p : Phase} {e' : Engine} (h : w.Sound L)
    (ht : w.tasks[i]? = some t) (hL : L.Agrees w.engine.nextSession L')
    (hg : w.engine.Grows e') (hs : e'.Sound L' (p.Moving (w.MovingBut i))) (hf : p.Fits L' e') :
    (⟨e', w.tasks.set i { t with phase := p }, w.published⟩ : Service).Sound L' where
  engine := by
    refine hs.mono fun id hm => ?_
    rcases hm with ⟨j, u, hji, hj, hc⟩ | hc
    · exact ⟨u, (mem_set_iff ht).2 (Or.inr ⟨j, hji, hj⟩), hc⟩
    · exact ⟨_, (mem_set_iff ht).2 (Or.inl rfl), hc⟩
  tasks := fun u hu => by
    rcases (mem_set_iff ht).1 hu with rfl | ⟨j, -, hj⟩
    · exact hf
    · exact (h.tasks u (List.mem_of_getElem? hj)).mono hg hL
  published := hg.holds h.published

theorem Sound.proceed (h : w.Sound L) (i : Nat) :
    ∃ L', L.Agrees w.engine.nextSession L' ∧ (w.proceed i).Sound L' := by
  rw [Service.proceed]
  cases ht : w.tasks[i]? with
  | none => exact ⟨L, .refl _ L, h⟩
  | some t =>
      dsimp only
      rcases step_cases h ht with hstep | ⟨c, hready, -, hstep⟩ | ⟨L', p, e', hL, hstep, hg, hs, hf, -⟩
      · rw [hstep]
        refine ⟨L, .refl _ L, ?_⟩
        have hsame : w.tasks.set i t = w.tasks := by
          obtain ⟨hi, hti⟩ := List.getElem?_eq_some_iff.1 ht
          rw [← hti]
          exact List.set_getElem_self hi
        rw [hsame]
        exact h
      · rw [hstep]
        refine ⟨L, .refl _ L, sound_set h ht (.refl _ L) (.refl _) ?_ trivial⟩
        refine h.engine.mono fun id hm => ?_
        have hm' := (moving_iff ht id).1 hm
        rw [hready] at hm'
        exact hm'
      · rw [hstep]
        exact ⟨L', hL, sound_set h ht hL hg hs hf⟩

/-- Every step keeps the service sound. -/
theorem Sound.step (h : w.Sound L) (hstep : Step w w') : ∃ L', w'.Sound L' := by
  cases hstep with
  | perform op =>
      obtain ⟨L', -, hs⟩ := h.perform op
      exact ⟨L', hs⟩
  | begin call => exact ⟨L, h.begin call⟩
  | proceed i =>
      obtain ⟨L', -, hs⟩ := h.proceed i
      exact ⟨L', hs⟩

theorem sound_fresh (settings : Settings) (sink : Option Sink) (executor : Option Executor)
    (now : Instant) (pin : String → Flow) :
    (fresh settings sink executor now).Sound ⟨pin, fun _ => ∅⟩ where
  engine := Engine.sound_fresh settings sink executor now pin _
  tasks := fun _ ht => absurd ht List.not_mem_nil
  published := fun _ hf => absurd hf List.not_mem_nil

/-- In every state that a service can be in, it is sound under some ledger. -/
theorem Reachable.sound {w : Service} (hw : w.Reachable) : ∃ L, w.Sound L := by
  induction hw with
  | fresh settings sink executor now =>
      exact ⟨_, sound_fresh settings sink executor now fun _ => .blank⟩
  | step _ hstep ih =>
      obtain ⟨L, h⟩ := ih
      exact h.step hstep

/-! ## What runs come to -/

theorem permits_of_not_isFault {caller : Option Caller} {err : EngineError} (h : ¬ err.IsFault) :
    w.Permits caller err := by
  cases err with
  | flowNotFound flowId version => exact absurd trivial h
  | nodeNotFound flowId nodeId => exact absurd trivial h
  | tooManySteps => exact absurd trivial h
  | _ => trivial

/-- A flow that is not being served was never published. -/
theorem Sound.permits_flowNotFound (h : w.Sound L) {c : Caller}
    (hnone : w.engine.registry.get? c.flowId = none) :
    w.Permits (some c) (.flowNotFound c.flowId none) := by
  refine ⟨c, rfl, rfl, fun f hf => ?_⟩
  obtain ⟨g, hg, hid⟩ := h.published f hf
  rw [← hid]
  exact h.engine.registry.ne_of_get?_eq_none hnone g hg

/-- Nothing is on the move while no operation is in progress. -/
theorem IsQuiet.not_moving (hq : w.IsQuiet) (id : String) : ¬ w.Moving id := by
  rintro ⟨t, ht, hc⟩
  have hfinished := hq t ht
  cases hp : t.phase with
  | finished r =>
      rw [hp] at hc
      exact hc
  | _ =>
      rw [hp] at hfinished
      cases hfinished

theorem Sound.rests (h : w.Sound L) {id : String} {s : Session}
    (hget : w.engine.store.get? id = some s) :
    ∃ f n, w.engine.registry.version? s.flowId s.flowVersion = some f ∧ f.WellFormed ∧
      s.currentNode = some n.id ∧ f.node? n.id = some n ∧
      (w.IsQuiet → s.isActive = true → n.isTransient = false) := by
  have hp := h.engine.placed id s hget
  obtain ⟨n, hnode, hn, hactive⟩ := hp.resting
  have hwf := h.engine.registry.validated _ (Registry.mem_of_version? hp.pinned)
  refine ⟨L.pin s.id, n, hp.pinned, hwf, hnode, hn, fun hq ha => ?_⟩
  rw [← Bool.not_eq_true]
  exact fun ht => hq.not_moving s.id ((hactive ha).2 ht)

theorem Sound.permits_perform (h : w.Sound L) {op : Operation} {err : EngineError}
    (herr : (op.perform.start w.engine).1 = .error err) : w.Permits op.caller? err := by
  rcases Operation.perform_cases h.engine op with ⟨c, rfl, hnone, hstart⟩ | ⟨L', -, -, hsafe⟩
  · rw [hstart] at herr
    cases herr
    exact h.permits_flowNotFound hnone
  · exact permits_of_not_isFault (hsafe.blameless err herr)

theorem Sound.permits_step (h : w.Sound L) {t : Task} (ht : t ∈ w.tasks)
    (hopen : t.phase.isFinished = false) {err : EngineError}
    (herr : (t.step w.engine).1.phase = .finished (.error err)) :
    w.Permits t.phase.caller? err := by
  obtain ⟨i, hi⟩ := List.mem_iff_getElem?.1 ht
  rcases step_cases h hi with
    hstep | ⟨c, hready, hnone, hstep⟩ | ⟨L', p, e', -, hstep, -, -, -, hp⟩
  · rw [hstep] at herr
    rw [herr] at hopen
    cases hopen
  · rw [hstep] at herr
    cases herr
    rw [hready]
    exact h.permits_flowNotFound hnone
  · rw [hstep] at herr
    exact permits_of_not_isFault (hp err herr)

/-- **Once is enough.**  In every state that a service can be in, each stored
session is pinned to a stored flow that is valid and rests at a node of it; if
no operation is in progress, an active session does not rest at a conditional.
No operation, performed at once or side by side with others, fails because a
node is missing or a turn takes too many steps, and one fails because a flow is
missing only if it is to start a session of a flow that was never published. -/
theorem Reachable.certified {w : Service} (hw : w.Reachable) :
    (∀ id s, w.engine.store.get? id = some s →
      ∃ f n, w.engine.registry.version? s.flowId s.flowVersion = some f ∧
        (∀ limits, (f.report limits).isValid = true) ∧
        s.currentNode = some n.id ∧ f.node? n.id = some n ∧
        (w.IsQuiet → s.isActive = true → n.isTransient = false)) ∧
    (∀ (op : Operation) (err : EngineError),
      (op.perform.start w.engine).1 = .error err → w.Permits op.caller? err) ∧
    ∀ t ∈ w.tasks, t.phase.isFinished = false → ∀ err,
      (t.step w.engine).1.phase = .finished (.error err) → w.Permits t.phase.caller? err := by
  obtain ⟨L, h⟩ := hw.sound
  refine ⟨fun id s hget => ?_, fun op err => h.permits_perform, fun t ht hopen err =>
    h.permits_step ht hopen⟩
  obtain ⟨f, n, hpinned, hwf, hrest⟩ := h.rests hget
  exact ⟨f, n, hpinned, fun limits => Flow.isValid_iff_wellFormed.2 hwf, hrest⟩

/-- A service in which a flow was published and a session of it was started step
by step: it passes the conditional and comes to rest behind it. -/
def greeted : Service :=
  let published := (fresh .standard none none ⟨0, by decide⟩).perform (.publish .greeting)
  (List.replicate 6 0).foldl proceed (published.begin (.create ⟨"greeting", "555", "*1#"⟩))

theorem Reachable.foldl_proceed {w : Service} (hw : w.Reachable) (is : List Nat) :
    (is.foldl proceed w).Reachable := by
  induction is generalizing w with
  | nil => exact hw
  | cons i rest ih => exact ih (hw.step (.proceed w i))

theorem reachable_greeted : greeted.Reachable := by
  have hpublished := Reachable.step (.fresh .standard none none ⟨0, by decide⟩)
    (.perform _ (.publish .greeting))
  exact (hpublished.step (.begin _ (.create ⟨"greeting", "555", "*1#"⟩))).foldl_proceed _

/-- The session that was started is pinned to a valid flow and does not rest at
the conditional where the flow starts. -/
theorem certified_greeted :
    greeted.Reachable ∧ ∃ s f n, greeted.engine.store.get? (sessionId 1) = some s ∧
      greeted.engine.registry.version? s.flowId s.flowVersion = some f ∧
      (∀ limits, (f.report limits).isValid = true) ∧ s.currentNode = some n.id ∧
      f.node? n.id = some n ∧ n.isTransient = false := by
  have hactive : (greeted.engine.store.get? (sessionId 1)).any Session.isActive = true := by
    decide +kernel
  have hquiet : greeted.tasks.all (·.phase.isFinished) = true := by decide +kernel
  obtain ⟨s, hget, ha⟩ := (Option.any_eq_true _ _).1 hactive
  obtain ⟨f, n, hpinned, hvalid, hnode, hn, hrest⟩ := reachable_greeted.certified.1 _ s hget
  exact ⟨reachable_greeted, s, f, n, hget, hpinned, hvalid, hnode, hn,
    hrest (List.all_eq_true.1 hquiet) ha⟩

end Service

end UssdFlows
