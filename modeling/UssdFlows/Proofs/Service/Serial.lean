import Mathlib.Data.List.Induction
import UssdFlows.Proofs.Service.Mirrors

/-!
# Operations on one session, one after another
-/

namespace UssdFlows

open EngineM

variable {e e' : Engine} {v : Visitor} {id : String}

/-! ## Operations on one session -/

namespace Phase

variable {p p' : Phase} {purpose : Purpose} {lock left n : Nat} {σ : Stage} {t : Turn}
  {r : Except EngineError Turn}

/-- An operation is an input to a session, or is to end it or take it out of
service. -/
def Concerns (id : String) : Phase → Prop
  | ready call => call.session? = some id
  | entering call i _ => call.session? = some id ∧ i = id
  | playing purpose _ _ _ t | acting purpose _ _ _ t => purpose = .answer ∧ t.sessionId = id
  | finished _ => True
  | opening .. | settling .. => False

theorem Plays.concerns (hp : Plays e p purpose lock left σ t r e') (h : p.Concerns id) :
    purpose = .answer ∧ t.sessionId = id := by
  cases hp <;> exact h

theorem Goes.concerns (hg : Goes v e p p' e') (h : p.Concerns id) : p'.Concerns id := by
  cases hg with
  | calls _ => cases h
  | @asks call j hcall =>
      have hid : j = id := Option.some.inj (hcall.symm.trans h)
      exact ⟨h, hid⟩
  | opens _ => exact h.elim
  | stores _ => exact h.elim
  | admits hadmission =>
      obtain ⟨-, s, f, n, -, -, -, -, rfl⟩ := admission_admitted hadmission
      exact ⟨rfl, h.2⟩
  | waits _ => exact h
  | continues hplays _ =>
      obtain ⟨hpurpose, hid⟩ := hplays.concerns h
      exact ⟨hpurpose, hplays.continues.sessionId.trans hid⟩
  | _ => trivial

/-- An operation on a session begins by asking for its section. -/
theorem Goes.of_ready {call : Call} (hg : Goes v e (ready call) p e')
    (h : call.session? = some id) :
    p = entering call id (e.locks.join id v).1 ∧ e' = { e with locks := (e.locks.join id v).2 } := by
  cases hg with
  | unserved _ => cases h
  | calls _ => cases h
  | asks hcall =>
      cases hcall.symm.trans h
      exact ⟨rfl, rfl⟩
  | continues hplays _ => cases hplays
  | concludes hplays _ _ _ => cases hplays

/-- Whether an operation has begun and is not over. -/
def isUnderWay : Phase → Bool
  | ready _ | finished _ => false
  | _ => true

theorem uses_eq_nil (h : p.isUnderWay = false) : p.uses = [] := by
  cases p with
  | ready call => rfl
  | finished r => rfl
  | _ => cases h

/-- Whether an operation is in its turn. -/
def isInTurn : Phase → Bool
  | playing .. | acting .. => true
  | _ => false

theorem Concerns.mem_uses (h : p.Concerns id) (hp : p.isUnderWay = true) :
    id ∈ p.uses.map Prod.fst := by
  cases p with
  | entering call i lock => exact List.mem_singleton.2 h.2.symm
  | playing purpose lock left σ t =>
      obtain ⟨rfl, rfl⟩ := h
      exact List.mem_singleton_self _
  | acting purpose lock left pending t =>
      obtain ⟨rfl, rfl⟩ := h
      exact List.mem_singleton_self _
  | opening c f lock => exact h.elim
  | settling c callerLock s t lock => exact h.elim
  | _ => cases hp

theorem Concerns.mem_inside (h : p.Concerns id) (hp : p.isInTurn = true) : id ∈ p.inside := by
  cases p with
  | playing purpose lock left σ t =>
      obtain ⟨rfl, rfl⟩ := h
      exact List.mem_singleton_self _
  | acting purpose lock left pending t =>
      obtain ⟨rfl, rfl⟩ := h
      exact List.mem_singleton_self _
  | _ => cases hp

/-! ## Phases of serial runs -/

/-- Where an operation stands, and where it stands in a run of one operation after
another: there it does not begin before it can go in. -/
inductive Mirrored : Phase → Phase → Prop where
  | ready (call : Call) : Mirrored (ready call) (ready call)
  | waits (call : Call) (id : String) (lock : Nat) :
      Mirrored (entering call id lock) (ready call)
  | plays (purpose : Purpose) (lock lock' left : Nat) (σ : Stage) (t : Turn) :
      Mirrored (playing purpose lock left σ t) (playing purpose lock' left σ t)
  | acts (purpose : Purpose) (lock lock' left : Nat) (pending : Turn.Pending) (t : Turn) :
      Mirrored (acting purpose lock left pending t) (acting purpose lock' left pending t)
  | ended (r : Except EngineError Reply) : Mirrored (finished r) (finished r)

theorem Mirrored.isUnderWay (h : Mirrored p p') : p'.isUnderWay = p.isInTurn := by
  cases h <;> rfl

/-- Whatever comes of an operation inside its section is mirrored under another
lock. -/
theorem Goes.mirrored (hg : Goes v e p p' e') (h : p.served?.isSome = true) (n : Nat) :
    p'.Mirrored (p'.relocked n) := by
  cases hg with
  | admits _ => exact .plays ..
  | waits _ => exact .acts ..
  | continues _ _ => exact .plays ..
  | calls _ => cases h
  | asks _ => cases h
  | opens _ => cases h
  | stores _ => cases h
  | _ => exact .ended _

end Phase

/-! ## Serial runs -/

/-- A step that an operation takes inside its section: which operation, whether it
has just gone in, and the time. -/
structure Reading where
  task : Nat
  enters : Bool
  time : Instant

namespace Phase

/-- The step that an operation takes when it goes on inside its section. -/
def readings (i : Nat) (now : Instant) : Phase → List Reading
  | entering .. => [⟨i, true, now⟩]
  | playing .. | acting .. => [⟨i, false, now⟩]
  | _ => []

end Phase

namespace Service

variable {w w' : Service}

/-- The steps that operations take inside their sections, in order. -/
def readings (w : Service) (ms : List Move) : List Reading :=
  w.log (fun i t e => t.phase.readings i e.now) ms

/-- What is noted of an operation that goes on. -/
theorem readings_proceed {i : Nat} {t : Task} (ht : w.tasks[i]? = some t)
    (hcan : t.phase.canStep t.visitor w.engine = true) :
    w.readings [.proceed i] = t.phase.readings i w.engine.now := by
  rw [Service.readings, log, log, List.append_nil, noted_of_canStep ht hcan]

/-- Time passes, or an operation goes on. -/
def Move.IsTick : Move → Prop
  | .turnClock _ | .proceed _ => True
  | _ => False

/-- At most one operation is under way. -/
def Solitary (w : Service) : Prop :=
  ∀ (i j : Nat) (t u : Task), w.tasks[i]? = some t → w.tasks[j]? = some u →
    t.phase.isUnderWay = true → u.phase.isUnderWay = true → i = j

/-- At most one operation is under way at any time of a run: each one begins when
those before it are over. -/
def Serial : Service → List Move → Prop
  | w, [] => w.Solitary
  | w, m :: ms => w.Solitary ∧ Serial (w.make m) ms

theorem Serial.append {ms ms' : List Move} (h : w.Serial ms) (h' : (w.after ms).Serial ms') :
    w.Serial (ms ++ ms') := by
  induction ms generalizing w with
  | nil => exact h'
  | cons m ms ih => exact ⟨h.1, ih h.2 h'⟩

/-- All operations in progress are about one session. -/
def Concerns (id : String) (w : Service) : Prop :=
  ∀ (i : Nat) (t : Task), w.tasks[i]? = some t → t.phase.Concerns id

theorem Concerns.make (h : w.Concerns id) {m : Move} (hm : m.IsTick) :
    (w.make m).Concerns id := by
  cases m with
  | turnClock now => exact h
  | proceed i =>
      rcases proceed_cases w i with ⟨hsame, -⟩ | ⟨t, p, e', ht, -, -, hg, hgoes, -⟩
      · show (w.proceed i).Concerns id
        rw [hsame]
        exact h
      · show (w.proceed i).Concerns id
        rw [hgoes]
        intro j u hu
        rcases set_cases hu with ⟨-, rfl⟩ | ⟨-, hu⟩
        · exact hg.concerns (h i t ht)
        · exact h j u hu
  | _ => exact hm.elim

theorem Concerns.after (h : w.Concerns id) {ms : List Move} (hms : ∀ m ∈ ms, m.IsTick) :
    (w.after ms).Concerns id := by
  induction ms generalizing w with
  | nil => exact h
  | cons m ms ih =>
      exact ih (h.make (hms m (List.mem_cons_self ..))) fun m' hm' =>
        hms m' (List.mem_cons_of_mem _ hm')

/-- A service in which the operations run one after another, as they go in. -/
structure Mirrors (w w' : Service) : Prop where
  engine : w.engine.Mirrors w'.engine
  length : w'.tasks.length = w.tasks.length
  tasks : ∀ (i : Nat) (t t' : Task), w.tasks[i]? = some t → w'.tasks[i]? = some t' →
    t.phase.Mirrored t'.phase

namespace Mirrors

/-- Each operation has its place in both services. -/
theorem task (h : w.Mirrors w') {i : Nat} {t' : Task} (ht' : w'.tasks[i]? = some t') :
    ∃ t, w.tasks[i]? = some t ∧ t.phase.Mirrored t'.phase := by
  obtain ⟨hi, -⟩ := List.getElem?_eq_some_iff.1 ht'
  have ht := List.getElem?_eq_getElem (h.length ▸ hi)
  exact ⟨_, ht, h.tasks i _ t' ht ht'⟩

theorem task' (h : w.Mirrors w') {i : Nat} {t : Task} (ht : w.tasks[i]? = some t) :
    ∃ t', w'.tasks[i]? = some t' ∧ t.phase.Mirrored t'.phase := by
  obtain ⟨hi, -⟩ := List.getElem?_eq_some_iff.1 ht
  have ht' := List.getElem?_eq_getElem (h.length.symm ▸ hi)
  exact ⟨_, ht', h.tasks i t _ ht ht'⟩

/-- Only those that are in a turn have begun. -/
theorem solitary (h : w.Mirrors w') (hline : w.InLine) (hc : w.Concerns id) : w'.Solitary := by
  intro i j t' u' ht' hu' htw huw
  obtain ⟨t, ht, hmt⟩ := h.task ht'
  obtain ⟨u, hu, hmu⟩ := h.task hu'
  rw [hmt.isUnderWay] at htw
  rw [hmu.isUnderWay] at huw
  have hit := (hc i t ht).mem_inside htw
  have hiu := (hc j u hu).mem_inside huw
  exact hline.alone ht hu ((hline.stands i t ht).first id hit) ((hline.stands j u hu).first id hiu)

/-- The same operation goes on in both services, inside its section. -/
theorem serve {i : Nat} {t t' : Task} {n : Nat} (hengine : w.engine.Mirrors w'.engine)
    (hlength : w'.tasks.length = w.tasks.length)
    (hothers : ∀ (j : Nat) (u u' : Task), j ≠ i → w.tasks[j]? = some u → w'.tasks[j]? = some u' →
      u.phase.Mirrored u'.phase)
    (ht : w.tasks[i]? = some t) (ht' : w'.tasks[i]? = some t')
    (hcan : t.phase.canStep t.visitor w.engine = true)
    (hcan' : t'.phase.canStep t'.visitor w'.engine = true)
    (hserved : t.phase.served?.isSome = true) (hphase : t'.phase = t.phase.relocked n) :
    (w.proceed i).Mirrors (w'.proceed i) := by
  obtain ⟨p, e₁, hstart, hgoes⟩ :=
    t.phase.goes_step (Phase.not_isFinished_of_canStep hcan) t.visitor w.engine
  have hmirrors : EngineM.Mirrors (Phase.relocked n) (t.phase.step t.visitor)
      ((t.phase.relocked n).step t'.visitor) := Phase.mirrors_step hserved
  obtain ⟨hresult, hafter⟩ := hmirrors _ _ hengine
  rw [← hphase, hstart] at hresult
  rw [← hphase, hstart] at hafter
  have hstart' : (t'.phase.step t'.visitor).start w'.engine =
      (.ok (p.relocked n), ((t'.phase.step t'.visitor).start w'.engine).2) :=
    Prod.ext hresult rfl
  rw [proceed_of_canStep ht hcan hstart, proceed_of_canStep ht' hcan' hstart']
  refine ⟨hafter, ?_, fun j u u' hu hu' => ?_⟩
  · show (w'.tasks.set i _).length = (w.tasks.set i _).length
    rw [List.length_set, List.length_set]
    exact hlength
  · rcases set_cases hu with ⟨rfl, rfl⟩ | ⟨hji, hu⟩
    · rcases set_cases hu' with ⟨-, rfl⟩ | ⟨hji, -⟩
      · exact hgoes.mirrored hserved n
      · exact absurd rfl hji
    · rcases set_cases hu' with ⟨hji', -⟩ | ⟨-, hu'⟩
      · exact absurd hji' hji
      · exact hothers j u u' hji hu hu'

/-- Nobody is in a turn in the place of an operation that is about to go in. -/
theorem quiet (h : w.Mirrors w') (hline : w.InLine) (hc : w.Concerns id) {i : Nat} {t : Task}
    (ht : w.tasks[i]? = some t) (hcan : t.phase.canStep t.visitor w.engine = true)
    (hp : t.phase.isUnderWay = true) (hturn : t.phase.isInTurn = false) {j : Nat} {u' : Task}
    (hu' : w'.tasks[j]? = some u') : u'.phase.isUnderWay = false := by
  obtain ⟨u, hu, hmu⟩ := h.task hu'
  rw [hmu.isUnderWay, ← Bool.not_eq_true]
  intro huw
  by_cases hji : j = i
  · subst hji
    rw [ht] at hu
    cases hu
    rw [hturn] at huw
    cases huw
  · exact hline.ne_of_inside ht hcan hu hji ((hc i t ht).mem_uses hp) ((hc j u hu).mem_inside huw)

/-- In the serial run an operation begins and goes in at once. -/
theorem enter (h : w.Mirrors w') (hline : w.InLine) (hline' : w'.InLine) (hc : w.Concerns id)
    {i : Nat} {v v' : Visitor} {call : Call} {lock : Nat}
    (ht : w.tasks[i]? = some ⟨v, .entering call id lock⟩)
    (ht' : w'.tasks[i]? = some ⟨v', .ready call⟩)
    (hcan : (Phase.entering call id lock).canStep v w.engine = true) :
    ∃ n, (w'.proceed i).Solitary ∧ (w'.proceed i).tasks[i]? = some ⟨v', .entering call id n⟩ ∧
      (Phase.entering call id n).canStep v' (w'.proceed i).engine = true ∧
      w.engine.Mirrors (w'.proceed i).engine ∧
      (w'.proceed i).tasks.length = w.tasks.length ∧
      ∀ (j : Nat) (u u' : Task), j ≠ i → w.tasks[j]? = some u →
        (w'.proceed i).tasks[j]? = some u' → u.phase.Mirrored u'.phase := by
  have hquiet : ∀ {j : Nat} {u' : Task}, w'.tasks[j]? = some u' → u'.phase.isUnderWay = false :=
    fun hu' => h.quiet hline hc ht hcan rfl rfl hu'
  have hcall : call.session? = some id := (hc i _ ht).1
  have hcan' : (Phase.ready call).canStep v' w'.engine = true := rfl
  obtain ⟨p, e₁, hstart, hgoes⟩ := (Phase.ready call).goes_step rfl v' w'.engine
  have hproceed := proceed_of_canStep ht' hcan' hstart
  have hline₁ := hline'.proceed i
  obtain ⟨rfl, rfl⟩ := hgoes.of_ready hcall
  rw [hproceed] at hline₁ ⊢
  obtain ⟨hi, -⟩ := List.getElem?_eq_some_iff.1 ht'
  have hself : (w'.tasks.set i ⟨v', .entering call id (w'.engine.locks.join id v').1⟩)[i]? =
      some ⟨v', .entering call id (w'.engine.locks.join id v').1⟩ := by
    rw [List.getElem?_set, if_pos rfl, if_pos hi]
  -- nobody else is in line
  have hempty : w'.engine.locks.line id = [] := by
    refine hline'.line_of_isFree fun j u' hu' => ?_
    rw [Phase.uses_eq_nil (hquiet hu')]
    exact List.not_mem_nil
  refine ⟨(w'.engine.locks.join id v').1, ?_, hself, ?_, ?_, ?_, ?_⟩
  · intro k l u₁ u₂ hu₁ hu₂ hp₁ hp₂
    have honly : ∀ {k : Nat} {u : Task}, (w'.tasks.set i
        ⟨v', .entering call id (w'.engine.locks.join id v').1⟩)[k]? = some u →
        u.phase.isUnderWay = true → k = i := by
      intro k u hu hp
      rcases set_cases hu with ⟨hki, -⟩ | ⟨-, hu⟩
      · exact hki
      · rw [hquiet hu] at hp
        cases hp
    exact (honly hu₁ hp₁).trans (honly hu₂ hp₂).symm
  · rw [Phase.canStep, Bool.and_eq_true]
    refine ⟨rfl, ?_⟩
    have hnumber : (w'.engine.locks.join id v').2.number? id =
        some (w'.engine.locks.join id v').1 := by
      rw [Locks.number?_join, if_pos rfl]
    refine (hline₁.neat.isInside_iff hnumber).2 ?_
    show ((w'.engine.locks.join id v').2.line id).head? = some v'
    rw [Locks.line_join hline'.neat, if_pos rfl, hempty]
    rfl
  · exact h.engine.trans (w'.engine.mirrors_locks _)
  · rw [List.length_set]
    exact h.length
  · intro k u u' hki hu hu'
    rcases set_cases hu' with ⟨hki', -⟩ | ⟨-, hu'⟩
    · exact absurd hki' hki
    · exact h.tasks k u u' hu hu'

/-- **Simulation.**  Whenever an operation goes on, the serial run catches up. -/
theorem proceed (h : w.Mirrors w') (hline : w.InLine) (hline' : w'.InLine) (hc : w.Concerns id)
    (i : Nat) :
    ∃ ms, (∀ m ∈ ms, m.IsTick) ∧ w'.Serial ms ∧ (w.proceed i).Mirrors (w'.after ms) ∧
      w'.readings ms = w.readings [.proceed i] := by
  have hsolitary := h.solitary hline hc
  have hsolitary' : ∀ {w₁ : Service}, (w.proceed i).Mirrors w₁ → w₁.Solitary :=
    fun h₁ => h₁.solitary (hline.proceed i) (hc.make (m := .proceed i) trivial)
  have hticks : ∀ m ∈ [Move.proceed i, Move.proceed i], m.IsTick := by
    intro m hm
    rcases List.mem_cons.1 hm with rfl | hm
    · trivial
    · rw [List.mem_singleton.1 hm]
      trivial
  rcases proceed_cases w i with ⟨hsame, hnote⟩ | ⟨⟨v, p⟩, p', e', ht, hcan, hstart, hg, hgoes, -⟩
  · refine ⟨[], fun m hm => absurd hm List.not_mem_nil, hsolitary, by rw [hsame]; exact h, ?_⟩
    rw [Service.readings, Service.readings, log, log, log, hnote]
    rfl
  · obtain ⟨⟨v', q⟩, ht', hmirrored⟩ := h.task' ht
    rw [readings_proceed ht hcan]
    -- an operation that is in its turn goes on in its turn
    have hturn : ∀ n, p.served?.isSome = true → q = p.relocked n → q.canStep v' w'.engine = true →
        q.readings i w.engine.now = p.readings i w.engine.now →
        ∃ ms, (∀ m ∈ ms, m.IsTick) ∧ w'.Serial ms ∧ (w.proceed i).Mirrors (w'.after ms) ∧
          w'.readings ms = p.readings i w.engine.now := by
      intro n hserved hphase hcan' hreadings
      have hafter := Mirrors.serve h.engine h.length (fun j u u' _ hu hu' => h.tasks j u u' hu hu')
        ht ht' hcan hcan' hserved hphase
      refine ⟨[.proceed i], fun m hm => hticks m (List.mem_cons_of_mem _ hm),
        ⟨hsolitary, hsolitary' hafter⟩, hafter, ?_⟩
      rw [readings_proceed ht' hcan', h.engine.now]
      exact hreadings
    cases hmirrored with
    | ready call =>
        refine ⟨[], fun m hm => absurd hm List.not_mem_nil, hsolitary, ?_, rfl⟩
        have hcall := hc i _ ht
        obtain ⟨rfl, rfl⟩ := hg.of_ready hcall
        rw [hgoes]
        refine ⟨(w.engine.mirrors_locks _).symm.trans h.engine, ?_, fun k u u' hu hu' => ?_⟩
        · show w'.tasks.length = (w.tasks.set i _).length
          rw [List.length_set]
          exact h.length
        · rcases set_cases hu with ⟨rfl, rfl⟩ | ⟨-, hu⟩
          · cases ht'.symm.trans hu'
            exact .waits ..
          · exact h.tasks k u u' hu hu'
    | waits call j lock =>
        obtain ⟨-, hid⟩ := hc i _ ht
        subst hid
        obtain ⟨n, hfirst, hself, hcan', hengine, hlength, hothers⟩ :=
          h.enter hline hline' hc ht ht' hcan
        have hafter := Mirrors.serve hengine hlength hothers ht hself hcan hcan' rfl rfl
        refine ⟨[.proceed i, .proceed i], hticks, ⟨hsolitary, hfirst, hsolitary' hafter⟩, hafter, ?_⟩
        have hnone : w'.readings [.proceed i] = [] := readings_proceed ht' rfl
        have htwice : w'.readings [.proceed i, .proceed i] =
            w'.readings [.proceed i] ++ (w'.proceed i).readings [.proceed i] :=
          log_append _ w' [.proceed i] [.proceed i]
        rw [htwice, hnone, readings_proceed hself hcan', hengine.now]
        rfl
    | plays purpose lock lock' left σ t => exact hturn lock' rfl rfl rfl rfl
    | acts purpose lock lock' left pending t => exact hturn lock' rfl rfl rfl rfl
    | ended r => cases hcan

/-- Whatever happens to the operations, the serial run catches up. -/
theorem after (h : w.Mirrors w') (hline : w.InLine) (hline' : w'.InLine) (hc : w.Concerns id)
    {ms : List Move} (hms : ∀ m ∈ ms, m.IsTick) :
    ∃ ms', (∀ m ∈ ms', m.IsTick) ∧ w'.Serial ms' ∧ (w.after ms).Mirrors (w'.after ms') ∧
      w'.readings ms' = w.readings ms := by
  induction ms generalizing w w' with
  | nil =>
      exact ⟨[], fun m hm => absurd hm List.not_mem_nil, h.solitary hline hc, h, rfl⟩
  | cons m ms ih =>
      have hm := hms m (List.mem_cons_self ..)
      have hmove : ∃ ms₁, (∀ m ∈ ms₁, m.IsTick) ∧ w'.Serial ms₁ ∧
          (w.make m).Mirrors (w'.after ms₁) ∧ w'.readings ms₁ = w.readings [m] := by
        cases m with
        | turnClock now =>
            have hafter : (w.make (.turnClock now)).Mirrors (w'.make (.turnClock now)) :=
              ⟨h.engine.at now, h.length, h.tasks⟩
            refine ⟨[.turnClock now], fun m hm => ?_, ⟨h.solitary hline hc, ?_⟩, hafter, rfl⟩
            · rw [List.mem_singleton.1 hm]
              trivial
            · exact hafter.solitary (hline.make _) (hc.make (m := .turnClock now) trivial)
        | proceed i => exact h.proceed hline hline' hc i
        | _ => exact hm.elim
      obtain ⟨ms₁, hms₁, hserial₁, h₁, hreadings₁⟩ := hmove
      obtain ⟨ms₂, hms₂, hserial₂, h₂, hreadings₂⟩ := ih h₁ (hline.make m) (hline'.after ms₁)
        (hc.make hm) fun m' hm' => hms m' (List.mem_cons_of_mem _ hm')
      refine ⟨ms₁ ++ ms₂, fun m' hm' => ?_, hserial₁.append hserial₂, ?_, ?_⟩
      · exact (List.mem_append.1 hm').elim (hms₁ m') (hms₂ m')
      · rw [after_append]
        exact h₂
      · rw [Service.readings, log_append, Service.readings, ← List.singleton_append, log_append]
        exact congrArg₂ (· ++ ·) hreadings₁ hreadings₂

end Mirrors

/-! ## Operations that begin together -/

/-- Operations that have begun, none of which has gone on yet. -/
def together (e : Engine) (calls : List Call) : Service := calls.foldl begin ⟨e, [], []⟩

theorem together_concat (e : Engine) (calls : List Call) (call : Call) :
    together e (calls ++ [call]) = (together e calls).begin call := List.foldl_concat ..

theorem length_together (e : Engine) (calls : List Call) :
    (together e calls).tasks.length = calls.length := by
  induction calls using List.reverseRecOn with
  | nil => rfl
  | append_singleton calls call ih =>
      rw [together_concat, List.length_append, ← ih]
      exact List.length_append

theorem tasks_together (e : Engine) (calls : List Call) (i : Nat) :
    (together e calls).tasks[i]? = calls[i]?.map fun call => ⟨i + 1, .ready call⟩ := by
  induction calls using List.reverseRecOn with
  | nil => rfl
  | append_singleton calls call ih =>
      rw [together_concat, Service.begin, List.getElem?_append, List.getElem?_append, ih,
        length_together]
      split
      · rfl
      · rename_i hi
        rw [List.getElem?_singleton, List.getElem?_singleton]
        split
        · rename_i hsub
          have hi' : i = calls.length := by omega
          rw [hi']
          rfl
        · rfl

theorem inLine_together (h : e.locks.Idle) (calls : List Call) : (together e calls).InLine := by
  induction calls using List.reverseRecOn with
  | nil => exact inLine_of_idle h []
  | append_singleton calls call ih =>
      rw [together_concat]
      exact ih.begin call

end Service

end UssdFlows
