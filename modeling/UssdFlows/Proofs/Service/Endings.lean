import UssdFlows.Proofs.Service.Certified
import UssdFlows.Proofs.Service.Serial

/-!
# How a session ends among concurrent operations

Operations on one session run side by side, and each looks at the session again
when it goes in.  So a session ends once (`length_endings_le`); whoever goes in
after that is turned away and changes nothing (`Over.after`); and whoever is to
take the session out of service leaves it alone if a turn has renewed it
meanwhile (`Renewed.after`).

Together with the serial runs this is what is meant by saying that the operations
can be serialised (`Service.Serialised`).
-/

namespace UssdFlows

open EngineM

variable {e e' : Engine} {v : Visitor} {id : String} {s : Session} {may : Effect → Prop}

/-! ## Sessions that are active -/

/-- Whether a session is stored and active. -/
def Engine.hasActive (e : Engine) (id : String) : Bool := (e.store.get? id).any Session.isActive

/-- No session is made active. -/
theorem Engine.Touches.hasActive (h : e.Touches may id e') (ha : e'.hasActive id = true) :
    e.hasActive id = true := by
  obtain ⟨s', hget', hs'⟩ := (Option.any_eq_true _ _).1 ha
  obtain ⟨s, hget, hfollows⟩ := h.own s' hget'
  exact (Option.any_eq_true _ _).2 ⟨s, hget, hfollows.active hs'⟩

/-- What does not end sessions leaves an active one active. -/
theorem Engine.Touches.keeps_hasActive (h : e.Touches may id e') (hno : ¬ may .finish)
    (ha : e.hasActive id = true) : e'.hasActive id = true := by
  obtain ⟨s, hget, hs⟩ := (Option.any_eq_true _ _).1 ha
  obtain ⟨s', hget', hfollows⟩ := h.stays s hget
  refine (Option.any_eq_true _ _).2 ⟨s', hget', ?_⟩
  rw [Session.isActive, hfollows.status hno]
  exact hs

/-- How an operation on a session that is over is turned away. -/
def Call.turnedAway (id : String) (status : SessionStatus) : Call → Except EngineError Reply
  | .expire .. => .ok (.truth false)
  | _ => .error (.notActive id status)

namespace Phase

variable {p p' p'' : Phase}

theorem Plays.may_imp {purpose : Purpose} {lock left : Nat} {σ : Stage} {t : Turn}
    {r : Except EngineError Turn} {x : Effect} (hp : Plays e p purpose lock left σ t r e')
    (h : p.May x) : σ.May x := by
  cases hp with
  | answered _ => exact h.elim
  | _ => exact h

/-- An operation on a session changes no other one. -/
theorem Concerns.touches (h : p.Concerns id) (hg : Goes v e p p' e') : e.Touches p.May id e' := by
  cases p with
  | ready call =>
      obtain ⟨-, rfl⟩ := hg.of_ready h
      exact (e.alike_locks _).touches
  | opening c f lock => exact h.elim
  | settling c callerLock s t lock => exact h.elim
  | entering call i lock => exact hg.touches (congrArg some h.2)
  | playing purpose lock left σ t => exact hg.touches (congrArg some h.2)
  | acting purpose lock left pending t => exact hg.touches (congrArg some h.2)
  | finished r =>
      cases hg with
      | continues hplays _ => cases hplays
      | concludes hplays _ _ _ => cases hplays

/-- A turn begins with an active session and goes on while it is active. -/
theorem Goes.hasActive (hg : Goes v e p p' e') (h : p.Concerns id)
    (ha : p.isInTurn = true → e.hasActive id = true) (hp' : p'.isInTurn = true) :
    e'.hasActive id = true := by
  have htouches := h.touches hg
  cases hg with
  | stores _ => exact h.elim
  | admits hadmission =>
      obtain ⟨rfl, s, f, n, hget, hlive, -⟩ := admission_admitted hadmission
      rw [h.2] at hget
      rw [Session.isLive, Bool.and_eq_true] at hlive
      exact (Option.any_eq_true _ _).2 ⟨s, hget, hlive.1⟩
  | @waits purpose lock left t pending _ _ =>
      have hno : ¬ Stage.dispatch.May .finish := fun hmay => Stage.noConfusion hmay.eq_complete
      exact htouches.keeps_hasActive hno (ha rfl)
  | @continues _ purpose lock left σ t t' σ' _ hplays hn =>
      have hσ : σ ≠ .complete := by
        rintro rfl
        cases hn
      have hactive : e.hasActive id = true := ha (by cases hplays <;> rfl)
      exact htouches.keeps_hasActive (fun hmay => hσ (hplays.may_imp hmay).eq_complete) hactive
  | _ => cases hp'

/-- What an operation that is not in its turn yet, nor over, is asked. -/
def asked? : Phase → Option Call
  | ready call | entering call _ _ => some call
  | _ => none

/-- An operation that has gone in is not asked any more. -/
theorem Goes.asked (hg : Goes v e p p' e') : p'.asked? = none ∨ p'.asked? = p.asked? := by
  cases hg with
  | asks _ => exact Or.inr rfl
  | _ => exact Or.inl rfl

/-- An operation waits, or has been turned away. -/
def Ignored (id : String) (status : SessionStatus) (p p' : Phase) : Prop :=
  p' = p ∨ ∃ call, p.asked? = some call ∧
    (p'.asked? = some call ∨ p' = .finished (call.turnedAway id status))

variable {status : SessionStatus}

theorem Ignored.trans (h : Ignored id status p p') (h' : Ignored id status p' p'') :
    Ignored id status p p'' := by
  rcases h with rfl | ⟨call, hcall, hcall' | rfl⟩
  · exact h'
  · rcases h' with rfl | ⟨call', hasked, hrest⟩
    · exact Or.inr ⟨call, hcall, Or.inl hcall'⟩
    · cases hcall'.symm.trans hasked
      exact Or.inr ⟨call, hcall, hrest⟩
  · rcases h' with rfl | ⟨call', hasked, -⟩
    · exact Or.inr ⟨call, hcall, Or.inr rfl⟩
    · cases hasked

/-- A session that is over stays as it is, and operations on it are turned away. -/
theorem Goes.ignored (hg : Goes v e p p' e') (h : p.Concerns id) (hturn : p.isInTurn = false)
    (hget : e.store.get? id = some s) (hover : s.isActive = false) :
    e'.store = e.store ∧ p'.isInTurn = false ∧ Ignored id s.status p p' := by
  cases hg with
  | calls _ => cases h
  | unserved _ => cases h
  | asks _ => exact ⟨rfl, rfl, Or.inr ⟨_, rfl, Or.inl rfl⟩⟩
  | opens _ => exact h.elim
  | resumes _ _ _ => exact h.elim
  | stores _ => exact h.elim
  | drops _ _ => exact h.elim
  | @admits i text j lock t _ hadmission =>
      obtain ⟨-, rfl⟩ := h
      rw [start_admission_of_not_isActive hget hover] at hadmission
      cases hadmission
  | @refuses i text j lock a err e₁ _ hadmission ha hc =>
      obtain ⟨-, rfl⟩ := h
      rw [start_admission_of_not_isActive hget hover] at hadmission
      cases hadmission
      cases ha
      exact ⟨hc.alike.store, rfl, Or.inr ⟨_, rfl, Or.inr rfl⟩⟩
  | @ends i reason j lock r e₁ _ hend hc =>
      obtain ⟨-, rfl⟩ := h
      rw [endSession, start_bind_of_ok (start_session_of_stored hget), hover] at hend
      cases hend
      exact ⟨hc.alike.store, rfl, Or.inr ⟨_, rfl, Or.inr rfl⟩⟩
  | @lapses i now j lock r e₁ _ hlapse hc =>
      obtain ⟨-, rfl⟩ := h
      have hnot : (lapseIfDue j now).start e = (.ok false, e) := by
        rw [lapseIfDue, start_bind_of_ok (start_get e), hget]
        simp only [hover, Bool.false_and, Bool.false_eq_true, if_false, start_pure]
      rw [hnot] at hlapse
      cases hlapse
      exact ⟨hc.alike.store, rfl, Or.inr ⟨_, rfl, Or.inr rfl⟩⟩
  | strays => cases h.1
  | waits _ => cases hturn
  | continues hplays _ => cases hplays <;> cases hturn
  | concludes hplays _ _ _ => cases hplays <;> cases hturn

/-! ## Sessions that are renewed -/

/-- What an operation has given back, if it is over. -/
def result? : Phase → Option (Except EngineError Reply)
  | finished r => some r
  | _ => none

theorem Mirrored.result?_eq (h : p.Mirrored p') : p'.result? = p.result? := by
  cases h <;> rfl

/-- Whether an operation is about to record an input. -/
def isAboutToRecord : Phase → Bool
  | playing _ _ _ .recordInput _ => true
  | _ => false

/-- A turn that has recorded its input does not renew the session again. -/
theorem Goes.spares (hg : Goes v e p p' e') (h : p.Concerns id) (hrecord : p.isAboutToRecord = false)
    (henter : p.awaited? = none) (hget : e.store.get? id = some s) :
    p'.isAboutToRecord = false ∧
      ∃ s', e'.store.get? id = some s' ∧ s'.expiresAt = s.expiresAt := by
  have hmay : ¬ p.May .renew := by
    intro hmay
    cases p with
    | playing purpose lock left σ t =>
        rw [Stage.May.eq_recordInput hmay] at hrecord
        cases hrecord
    | entering call i lock => cases henter
    | _ => exact hmay
  obtain ⟨s', hget', hfollows⟩ := (h.touches hg).stays s hget
  refine ⟨?_, s', hget', hfollows.expiry hmay⟩
  cases hg with
  | stores _ => exact h.elim
  | admits _ => cases henter
  | @continues _ purpose lock left σ t t' σ' _ _ hn =>
      cases σ' with
      | recordInput => exact absurd hn (t'.next?_ne_recordInput σ)
      | _ => rfl
  | _ => rfl

end Phase

/-! ## Sessions that end -/

namespace Service

variable {w : Service}

/-- The operations that end a session. -/
def endings (w : Service) (id : String) (ms : List Move) : List Nat :=
  w.log (fun i t e => if e.hasActive id && !(t.step e).2.hasActive id then [i] else []) ms

/-- Once a session is not active it never is again. -/
theorem Concerns.hasActive_make (h : w.Concerns id) {m : Move} (hm : m.IsTick)
    (ha : (w.make m).engine.hasActive id = true) : w.engine.hasActive id = true := by
  cases m with
  | turnClock now => exact ha
  | proceed i =>
      rcases proceed_cases w i with ⟨hsame, -⟩ | ⟨t, p, e', ht, -, -, hg, hgoes, -⟩
      · have ha' : (w.proceed i).engine.hasActive id = true := ha
        rw [hsame] at ha'
        exact ha'
      · have ha' : (w.proceed i).engine.hasActive id = true := ha
        rw [hgoes] at ha'
        exact ((h i t ht).touches hg).hasActive ha'
  | _ => exact hm.elim

theorem noted_endings (w : Service) (id : String) (m : Move) :
    noted (fun i t e => if e.hasActive id && !(t.step e).2.hasActive id then [i] else []) w m = [] ∨
      ∃ i, noted (fun i t e => if e.hasActive id && !(t.step e).2.hasActive id then [i] else []) w
          m = [i] ∧ w.engine.hasActive id = true ∧ (w.make m).engine.hasActive id = false := by
  cases m with
  | proceed i =>
      rcases proceed_cases w i with ⟨-, hnote⟩ | ⟨t, p, e', -, hcan, hstart, -, hgoes, hnote⟩
      · exact Or.inl (hnote _)
      · have hstep : (t.step w.engine).2 = e' := by
          simp only [Task.step, if_pos hcan, hstart]
        rw [hnote, hstep]
        by_cases hends : (w.engine.hasActive id && !e'.hasActive id) = true
        · refine Or.inr ⟨i, if_pos hends, ?_⟩
          rw [Bool.and_eq_true, Bool.not_eq_true'] at hends
          refine ⟨hends.1, ?_⟩
          show (w.proceed i).engine.hasActive id = false
          rw [hgoes]
          exact hends.2
        · exact Or.inl (if_neg hends)
  | _ => exact Or.inl rfl

/-- **Once.**  A session ends at most once. -/
theorem Concerns.length_endings_le (h : w.Concerns id) {ms : List Move}
    (hms : ∀ m ∈ ms, m.IsTick) : (w.endings id ms).length ≤ 1 ∧
      (w.engine.hasActive id = false → w.endings id ms = []) := by
  induction ms generalizing w with
  | nil => exact ⟨Nat.zero_le 1, fun _ => rfl⟩
  | cons m ms ih =>
      have hm := hms m (List.mem_cons_self ..)
      obtain ⟨hlength, hnil⟩ := ih (h.make hm) fun m' hm' => hms m' (List.mem_cons_of_mem _ hm')
      rw [endings, log]
      rcases noted_endings w id m with hnone | ⟨i, hone, hactive, hended⟩
      · rw [hnone, List.nil_append]
        refine ⟨hlength, fun hover => hnil ?_⟩
        rw [← Bool.not_eq_true] at hover ⊢
        exact fun ha => hover (h.hasActive_make hm ha)
      · rw [hone, show log _ (w.make m) ms = [] from hnil hended]
        refine ⟨Nat.le_refl 1, fun hover => ?_⟩
        rw [hover] at hactive
        cases hactive

/-! ## Sessions that are over -/

/-- Whoever is in a turn serves an active session. -/
def Serves (id : String) (w : Service) : Prop :=
  ∀ (i : Nat) (t : Task), w.tasks[i]? = some t → t.phase.isInTurn = true →
    w.engine.hasActive id = true

theorem Serves.make (h : w.Serves id) (hline : w.InLine) (hc : w.Concerns id) {m : Move}
    (hm : m.IsTick) : (w.make m).Serves id := by
  cases m with
  | turnClock now => exact h
  | proceed i =>
      show (w.proceed i).Serves id
      rcases proceed_cases w i with ⟨hsame, -⟩ | ⟨t, p, e', ht, hcan, -, hg, hgoes, -⟩
      · rw [hsame]
        exact h
      · rw [hgoes]
        intro j u hu huw
        rcases set_cases hu with ⟨-, rfl⟩ | ⟨hji, hu⟩
        · exact hg.hasActive (hc i t ht) (h i t ht) huw
        · -- whoever goes on while another one is in a turn has only just begun
          have hactive := h j u hu huw
          have hinside := (hc j u hu).mem_inside huw
          have hidle : t.phase.isUnderWay = false := by
            rw [← Bool.not_eq_true]
            exact fun hp => hline.ne_of_inside ht hcan hu hji ((hc i t ht).mem_uses hp) hinside
          refine ((hc i t ht).touches hg).keeps_hasActive (fun hmay => ?_) hactive
          cases hp : t.phase with
          | ready call =>
              rw [hp] at hmay
              exact hmay
          | finished r =>
              rw [hp] at hmay
              exact hmay
          | _ =>
              rw [hp] at hidle
              cases hidle
  | _ => exact hm.elim

theorem Serves.after (h : w.Serves id) (hline : w.InLine) (hc : w.Concerns id) {ms : List Move}
    (hms : ∀ m ∈ ms, m.IsTick) : (w.after ms).Serves id := by
  induction ms generalizing w with
  | nil => exact h
  | cons m ms ih =>
      have hm := hms m (List.mem_cons_self ..)
      exact ih (h.make hline hc hm) (hline.make m) (hc.make hm) fun m' hm' =>
        hms m' (List.mem_cons_of_mem _ hm')

/-- A session is stored that is not active. -/
structure Over (id : String) (s : Session) (w : Service) : Prop where
  stored : w.engine.store.get? id = some s
  isOver : s.isActive = false
  turns : ∀ (i : Nat) (t : Task), w.tasks[i]? = some t → t.phase.isInTurn = false

theorem Serves.ended (h : w.Serves id) (hget : w.engine.store.get? id = some s)
    (hover : s.isActive = false) : w.Over id s where
  stored := hget
  isOver := hover
  turns := fun i t ht => by
    rw [← Bool.not_eq_true]
    intro hturn
    obtain ⟨s', hget', hs'⟩ := (Option.any_eq_true _ _).1 (h i t ht hturn)
    rw [hget] at hget'
    cases hget'
    rw [hover] at hs'
    cases hs'

theorem Over.make (h : w.Over id s) (hc : w.Concerns id) {m : Move} (hm : m.IsTick) :
    (w.make m).Over id s ∧ ∀ (i : Nat) (t' : Task), (w.make m).tasks[i]? = some t' →
      ∃ t, w.tasks[i]? = some t ∧ t.phase.Ignored id s.status t'.phase := by
  cases m with
  | turnClock now =>
      exact ⟨⟨h.stored, h.isOver, h.turns⟩, fun i t' ht' => ⟨t', ht', Or.inl rfl⟩⟩
  | proceed i =>
      show (w.proceed i).Over id s ∧ ∀ (j : Nat) (t' : Task), (w.proceed i).tasks[j]? = some t' → _
      rcases proceed_cases w i with ⟨hsame, -⟩ | ⟨t, p, e', ht, -, -, hg, hgoes, -⟩
      · rw [hsame]
        exact ⟨h, fun j t' ht' => ⟨t', ht', Or.inl rfl⟩⟩
      · obtain ⟨hstore, hturn, hignored⟩ :=
          hg.ignored (hc i t ht) (h.turns i t ht) h.stored h.isOver
        rw [hgoes]
        refine ⟨⟨?_, h.isOver, fun j u hu => ?_⟩, fun j u hu => ?_⟩
        · show e'.store.get? id = some s
          rw [hstore]
          exact h.stored
        · rcases set_cases hu with ⟨-, rfl⟩ | ⟨-, hu⟩
          · exact hturn
          · exact h.turns j u hu
        · rcases set_cases hu with ⟨rfl, rfl⟩ | ⟨-, hu⟩
          · exact ⟨t, ht, hignored⟩
          · exact ⟨u, hu, Or.inl rfl⟩
  | _ => exact hm.elim

/-- **Over.**  A session that is over stays as it is, and every operation on it is
turned away when it goes in. -/
theorem Over.after (h : w.Over id s) (hc : w.Concerns id) {ms : List Move}
    (hms : ∀ m ∈ ms, m.IsTick) :
    (w.after ms).Over id s ∧ ∀ (i : Nat) (t' : Task), (w.after ms).tasks[i]? = some t' →
      ∃ t, w.tasks[i]? = some t ∧ t.phase.Ignored id s.status t'.phase := by
  induction ms generalizing w with
  | nil => exact ⟨h, fun i t' ht' => ⟨t', ht', Or.inl rfl⟩⟩
  | cons m ms ih =>
      have hm := hms m (List.mem_cons_self ..)
      obtain ⟨h₁, hignored₁⟩ := h.make hc hm
      obtain ⟨h₂, hignored₂⟩ := ih h₁ (hc.make hm) fun m' hm' => hms m' (List.mem_cons_of_mem _ hm')
      refine ⟨h₂, fun i t' ht' => ?_⟩
      obtain ⟨u, hu, hlater⟩ := hignored₂ i t' ht'
      obtain ⟨t, ht, hsooner⟩ := hignored₁ i u hu
      exact ⟨t, ht, hsooner.trans hlater⟩

/-! ## Sessions that are renewed -/

/-- A session is stored that expires at some time, and no turn is about to record
an input to it. -/
structure Renewed (id : String) (expiry : Instant) (w : Service) : Prop where
  stored : ∃ s, w.engine.store.get? id = some s ∧ s.expiresAt = expiry
  recorded : ∀ (i : Nat) (t : Task), w.tasks[i]? = some t → t.phase.isAboutToRecord = false

variable {expiry : Instant}

theorem Renewed.make (h : w.Renewed id expiry) (hc : w.Concerns id) {m : Move} (hm : m.IsTick)
    (henter : ∀ x ∈ w.readings [m], x.enters = false) : (w.make m).Renewed id expiry := by
  cases m with
  | turnClock now => exact ⟨h.stored, h.recorded⟩
  | proceed i =>
      show (w.proceed i).Renewed id expiry
      rcases proceed_cases w i with ⟨hsame, -⟩ | ⟨t, p, e', ht, hcan, -, hg, hgoes, -⟩
      · rw [hsame]
        exact h
      · have hinside : t.phase.awaited? = none := by
          rw [readings_proceed ht hcan] at henter
          have hconcerns := hc i t ht
          cases hp : t.phase with
          | opening c f lock =>
              rw [hp] at hconcerns
              exact hconcerns.elim
          | settling c callerLock s t lock =>
              rw [hp] at hconcerns
              exact hconcerns.elim
          | entering call j lock =>
              rw [hp] at henter
              cases henter _ (List.mem_singleton_self _)
          | _ => rfl
        obtain ⟨s, hget, hexpiry⟩ := h.stored
        obtain ⟨hrecord, s', hget', hsame⟩ :=
          hg.spares (hc i t ht) (h.recorded i t ht) hinside hget
        rw [hgoes]
        refine ⟨⟨s', hget', hsame.trans hexpiry⟩, fun j u hu => ?_⟩
        rcases set_cases hu with ⟨-, rfl⟩ | ⟨-, hu⟩
        · exact hrecord
        · exact h.recorded j u hu
  | _ => exact hm.elim

/-- **Renewed.**  Until another operation goes in, a session that was renewed expires
when it was to expire. -/
theorem Renewed.after (h : w.Renewed id expiry) (hc : w.Concerns id) {ms : List Move}
    (hms : ∀ m ∈ ms, m.IsTick) (henter : ∀ x ∈ w.readings ms, x.enters = false) :
    (w.after ms).Renewed id expiry := by
  induction ms generalizing w with
  | nil => exact h
  | cons m ms ih =>
      have hm := hms m (List.mem_cons_self ..)
      have hsplit : w.readings (m :: ms) = w.readings [m] ++ (w.make m).readings ms :=
        log_append _ w [m] ms
      rw [hsplit] at henter
      refine ih (h.make hc hm fun x hx => henter x (List.mem_append_left _ hx)) (hc.make hm)
        (fun m' hm' => hms m' (List.mem_cons_of_mem _ hm')) fun x hx => ?_
      exact henter x (List.mem_append_right _ hx)

/-- An operation that has not gone in is asked what it was asked before. -/
theorem asked_after (w : Service) {ms : List Move} (hms : ∀ m ∈ ms, m.IsTick) (i : Nat) (t' : Task)
    (ht' : (w.after ms).tasks[i]? = some t') :
    ∃ t, w.tasks[i]? = some t ∧ (t'.phase.asked? = none ∨ t'.phase.asked? = t.phase.asked?) := by
  induction ms generalizing w with
  | nil => exact ⟨t', ht', Or.inr rfl⟩
  | cons m ms ih =>
      obtain ⟨u, hu, hlater⟩ := ih (w.make m) (fun m' hm' => hms m' (List.mem_cons_of_mem _ hm')) ht'
      have hmove : ∃ t, w.tasks[i]? = some t ∧
          (u.phase.asked? = none ∨ u.phase.asked? = t.phase.asked?) := by
        cases m with
        | turnClock now => exact ⟨u, hu, Or.inr rfl⟩
        | proceed j =>
            have hu' : (w.proceed j).tasks[i]? = some u := hu
            rcases proceed_cases w j with ⟨hsame, -⟩ | ⟨t, p, e', ht, -, -, hg, hgoes, -⟩
            · rw [hsame] at hu'
              exact ⟨u, hu', Or.inr rfl⟩
            · rw [hgoes] at hu'
              rcases set_cases hu' with ⟨rfl, rfl⟩ | ⟨-, hu'⟩
              · exact ⟨t, ht, hg.asked⟩
              · exact ⟨u, hu', Or.inr rfl⟩
        | _ => exact (hms _ (List.mem_cons_self ..)).elim
      obtain ⟨t, ht, hsooner⟩ := hmove
      refine ⟨t, ht, ?_⟩
      rcases hlater with hnone | hlater
      · exact Or.inl hnone
      · rw [hlater]
        exact hsooner

/-! ## Serialisation -/

/-- What an operation has given back, if it is over. -/
def result? (w : Service) (i : Nat) : Option (Except EngineError Reply) :=
  (w.tasks[i]?).bind fun t => t.phase.result?

/-- Operations on one session can be serialised.  Whatever the order in which they
go on, the engine and the results are those of a run of one operation after
another, in the order in which they went in and with the same readings of the
clock.  One operation at most ends the session; those that go in after it are
turned away; and an operation that is to take the session out of service leaves
it alone if it was renewed while others were inside. -/
structure Serialised (id : String) (calls : List Call) (w : Service) : Prop where
  serial : ∀ ms : List Move, (∀ m ∈ ms, m.IsTick) →
    ∃ ms', (∀ m ∈ ms', m.IsTick) ∧ w.Serial ms' ∧ w.readings ms' = w.readings ms ∧
      (w.after ms).engine.Mirrors (w.after ms').engine ∧
      ∀ i, (w.after ms').result? i = (w.after ms).result? i
  once : ∀ ms : List Move, (∀ m ∈ ms, m.IsTick) → (w.endings id ms).length ≤ 1
  ended : ∀ (before later : List Move) (s : Session), (∀ m ∈ before ++ later, m.IsTick) →
    (w.after before).engine.store.get? id = some s → s.isActive = false →
    (w.after (before ++ later)).engine.store.get? id = some s ∧
      ∀ i call r, calls[i]? = some call → (w.after before).result? i = none →
        (w.after (before ++ later)).result? i = some r → r = call.turnedAway id s.status
  spared : ∀ (before meanwhile : List Move) (i : Nat) (now : Instant) (s : Session),
    (∀ m ∈ before ++ meanwhile, m.IsTick) → calls[i]? = some (.expire id now) →
    (w.after before).engine.store.get? id = some s → s.isPastExpiry now = false →
    (∀ (j : Nat) (t : Task), (w.after before).tasks[j]? = some t →
      t.phase.isAboutToRecord = false) →
    (∀ x ∈ (w.after before).readings meanwhile, x.enters = false) →
    (∃ x ∈ (w.after (before ++ meanwhile)).readings [.proceed i], x.enters = true) →
    (w.after (before ++ meanwhile ++ [.proceed i])).engine.store =
        (w.after (before ++ meanwhile)).engine.store ∧
      (w.after (before ++ meanwhile ++ [.proceed i])).result? i = some (.ok (.truth false))

variable {calls : List Call}

theorem concerns_together (h : ∀ call ∈ calls, call.session? = some id) (e : Engine) :
    (together e calls).Concerns id := by
  intro i t ht
  rw [tasks_together] at ht
  obtain ⟨call, hcall, rfl⟩ := Option.map_eq_some_iff.1 ht
  exact h call (List.mem_of_getElem? hcall)

theorem mirrors_together (e : Engine) (calls : List Call) :
    (together e calls).Mirrors (together e calls) := by
  refine ⟨rfl, rfl, fun i t t' ht ht' => ?_⟩
  cases ht.symm.trans ht'
  rw [tasks_together] at ht
  obtain ⟨call, -, rfl⟩ := Option.map_eq_some_iff.1 ht
  exact .ready call

theorem serves_together (id : String) (e : Engine) (calls : List Call) :
    (together e calls).Serves id := by
  intro i t ht hturn
  rw [tasks_together] at ht
  obtain ⟨call, -, rfl⟩ := Option.map_eq_some_iff.1 ht
  cases hturn

theorem Mirrors.result?_eq {w' : Service} (h : w.Mirrors w') (i : Nat) :
    w'.result? i = w.result? i := by
  rw [result?, result?]
  cases ht : w.tasks[i]? with
  | none =>
      have hlength := List.getElem?_eq_none_iff.1 ht
      rw [List.getElem?_eq_none (h.length ▸ hlength)]
  | some t =>
      obtain ⟨t', ht', hmirrored⟩ := h.task' ht
      rw [ht']
      exact hmirrored.result?_eq

/-- What is asked of an operation that has not gone in yet. -/
theorem asked_together {ms : List Move} (hms : ∀ m ∈ ms, m.IsTick) {i : Nat} {t : Task}
    (ht : ((together e calls).after ms).tasks[i]? = some t) :
    t.phase.asked? = none ∨ t.phase.asked? = calls[i]? := by
  obtain ⟨t₀, ht₀, hasked⟩ := asked_after _ hms i t ht
  rw [tasks_together] at ht₀
  obtain ⟨call, hcall, rfl⟩ := Option.map_eq_some_iff.1 ht₀
  rw [hcall]
  exact hasked

/-- An operation on a session that is over has been turned away, if it had not gone
in before. -/
theorem Over.result?_eq (h : w.Over id s) (hc : w.Concerns id) {ms : List Move}
    (hms : ∀ m ∈ ms, m.IsTick) {i : Nat} {call : Call} {r : Except EngineError Reply}
    (hasked : ∀ t, w.tasks[i]? = some t → t.phase.asked? = none ∨ t.phase.asked? = some call)
    (hopen : w.result? i = none) (hr : (w.after ms).result? i = some r) :
    r = call.turnedAway id s.status := by
  obtain ⟨t', ht', hr'⟩ := Option.bind_eq_some_iff.1 hr
  obtain ⟨-, hignored⟩ := h.after hc hms
  obtain ⟨t, ht, hphase⟩ := hignored i t' ht'
  have hfinished : t'.phase = .finished r := by
    cases hp : t'.phase with
    | finished r' =>
        rw [hp] at hr'
        cases hr'
        rfl
    | _ =>
        rw [hp] at hr'
        cases hr'
  have hunfinished : t.phase.result? = none := by
    rw [result?, ht] at hopen
    exact hopen
  rcases hphase with hsame | ⟨call', hcall', hstill | hover⟩
  · rw [← hsame, hr'] at hunfinished
    cases hunfinished
  · rw [hfinished] at hstill
    cases hstill
  · rcases hasked t ht with hnone | hsome
    · cases hnone.symm.trans hcall'
    · cases hsome.symm.trans hcall'
      exact Phase.finished.inj (hfinished.symm.trans hover)

/-- An operation that is to take a session out of service that is not due leaves it
alone. -/
theorem lapse_spared (hc : w.Concerns id) {i : Nat} {now : Instant}
    (hasked : ∀ t, w.tasks[i]? = some t →
      t.phase.asked? = none ∨ t.phase.asked? = some (.expire id now))
    (hget : w.engine.store.get? id = some s) (hx : s.isPastExpiry now = false)
    (henter : ∃ x ∈ w.readings [.proceed i], x.enters = true) :
    (w.proceed i).engine.store = w.engine.store ∧
      (w.proceed i).result? i = some (.ok (.truth false)) := by
  obtain ⟨x, hx', henters⟩ := henter
  rcases proceed_cases w i with ⟨-, hnote⟩ | ⟨⟨v, p⟩, p', e', ht, hcan, -, hg, hgoes, -⟩
  · rw [readings, log, log, hnote] at hx'
    cases hx'
  · rw [readings_proceed ht hcan] at hx'
    have hconcerns := hc i _ ht
    obtain ⟨hi, -⟩ := List.getElem?_eq_some_iff.1 ht
    cases p with
    | entering call j lock =>
        obtain ⟨-, rfl⟩ := hconcerns
        rcases hasked _ ht with hnone | hsome
        · cases hnone
        · cases hsome
          have hnot : (lapseIfDue j now).start w.engine = (.ok false, w.engine) := by
            rw [lapseIfDue, start_bind_of_ok (start_get w.engine), hget]
            simp only [hx, Bool.and_false, Bool.false_eq_true, if_false, start_pure]
          rw [hgoes]
          cases hg with
          | lapses hlapse hclose =>
              rw [hnot] at hlapse
              cases hlapse
              refine ⟨hclose.alike.store, ?_⟩
              rw [result?, List.getElem?_set, if_pos rfl, if_pos hi]
              rfl
          | continues hplays _ => cases hplays
          | concludes hplays _ _ _ => cases hplays
    | playing purpose lock left σ t =>
        rw [List.mem_singleton.1 hx'] at henters
        cases henters
    | acting purpose lock left pending t =>
        rw [List.mem_singleton.1 hx'] at henters
        cases henters
    | _ => cases hx'

/-- **Serialisation.**  Inputs to one session, and operations that end it or take it
out of service, can be serialised if nobody uses the locks when they begin. -/
theorem serialised_together (h : e.locks.Idle)
    (hcalls : ∀ call ∈ calls, call.session? = some id) :
    (together e calls).Serialised id calls where
  serial := fun ms hms => by
    have hline := inLine_together h calls
    obtain ⟨ms', hms', hserial, hmirrors, hreadings⟩ :=
      (mirrors_together e calls).after hline hline (concerns_together hcalls e) hms
    exact ⟨ms', hms', hserial, hreadings, hmirrors.engine, hmirrors.result?_eq⟩
  once := fun ms hms => ((concerns_together hcalls e).length_endings_le hms).1
  ended := fun before later s hms hget hover => by
    have hline := inLine_together h calls
    have hc := concerns_together hcalls e
    have hbefore : ∀ m ∈ before, m.IsTick := fun m hm => hms m (List.mem_append_left _ hm)
    have hlater : ∀ m ∈ later, m.IsTick := fun m hm => hms m (List.mem_append_right _ hm)
    have hserves := (serves_together id e calls).after hline hc hbefore
    have hisOver := hserves.ended hget hover
    rw [after_append]
    refine ⟨(hisOver.after (hc.after hbefore) hlater).1.stored, fun i call r hcall hopen hr => ?_⟩
    refine hisOver.result?_eq (hc.after hbefore) hlater (fun t ht => ?_) hopen hr
    rw [← hcall]
    exact asked_together hbefore ht
  spared := fun before meanwhile i now s hms hcall hget hx hrecorded henter hgoesIn => by
    have hc := concerns_together hcalls e
    have hbefore : ∀ m ∈ before, m.IsTick := fun m hm => hms m (List.mem_append_left _ hm)
    have hrenewed : ((together e calls).after before).Renewed id s.expiresAt :=
      ⟨⟨s, hget, rfl⟩, hrecorded⟩
    obtain ⟨⟨s', hget', hexpiry⟩, -⟩ := hrenewed.after (hc.after hbefore)
      (fun m hm => hms m (List.mem_append_right _ hm)) henter
    rw [← after_append] at hget'
    have hx' : s'.isPastExpiry now = false := by
      rw [Session.isPastExpiry, hexpiry]
      exact hx
    have hspared := lapse_spared (hc.after hms)
      (fun t ht => hcall ▸ asked_together hms ht) hget' hx' hgoesIn
    rw [after_append]
    exact hspared

/-- An input to the session that was started, and two operations that are to end
it. -/
def racing : List Call :=
  [.input (sessionId 1) "Ada", .terminate (sessionId 1) "over",
    .expire (sessionId 1) ⟨0, Instant.zero_inRange⟩]

/-- They go on in turns: the input goes in first and completes the session while the
others wait. -/
theorem serialised_greeted :
    greeted.engine.hasActive (sessionId 1) = true ∧
      (together greeted.engine racing).Serialised (sessionId 1) racing ∧
      (together greeted.engine racing).endings (sessionId 1)
        ((List.replicate 5 [0, 1, 2]).flatten.map .proceed) = [0] := by
  have hactive : greeted.engine.hasActive (sessionId 1) = true := by decide +kernel
  have hpublished : ((fresh .standard none none ⟨0, by decide⟩).perform
      (.publish .greeting)).InLine := (inLine_fresh ..).make (.publish .greeting)
  have hline : greeted.InLine :=
    (hpublished.begin (.create ⟨"greeting", "555", "*1#"⟩)).foldl_proceed _
  have hquiet : greeted.tasks.all (·.phase.isFinished) = true := by decide +kernel
  have hcalls : ∀ call ∈ racing, call.session? = some (sessionId 1) := by decide +kernel
  exact ⟨hactive, serialised_together (hline.idle (List.all_eq_true.1 hquiet)) hcalls,
    by decide +kernel⟩

end Service

end UssdFlows
