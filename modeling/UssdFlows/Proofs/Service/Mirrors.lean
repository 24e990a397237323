import UssdFlows.Proofs.Service.Sections

/-!
# Engines that differ in their locks

Two engines *mirror* each other if they differ in nothing but their locks
(`Engine.Mirrors`).  What an operation does inside its section does not depend
on the locks: on engines that mirror each other it comes to the same, except for
the numbers of the locks that it remembers (`Phase.mirrors_step`), and leaves
engines that mirror each other.
-/

namespace UssdFlows

variable {α β γ : Type} {e e' e'' : Engine} {v v' : Visitor}

/-- An engine is the other one except for its locks. -/
def Engine.Mirrors (e e' : Engine) : Prop := e' = { e with locks := e'.locks }

theorem Engine.mirrors_locks (e : Engine) (locks : Locks) : e.Mirrors { e with locks } := rfl

theorem Engine.Mirrors.trans (h : e.Mirrors e') (h' : e'.Mirrors e'') : e.Mirrors e'' := by
  rw [Engine.Mirrors] at h h' ⊢
  rw [h', h]

theorem Engine.Mirrors.symm (h : e.Mirrors e') : e'.Mirrors e := by
  rw [Engine.Mirrors] at h ⊢
  rw [h]

theorem Engine.Mirrors.now (h : e.Mirrors e') : e'.now = e.now := by
  rw [Engine.Mirrors] at h
  rw [h]

theorem Engine.Mirrors.store (h : e.Mirrors e') : e'.store = e.store := by
  rw [Engine.Mirrors] at h
  rw [h]

theorem Engine.Mirrors.sink (h : e.Mirrors e') : e'.sink = e.sink := by
  rw [Engine.Mirrors] at h
  rw [h]

theorem Engine.Mirrors.sameService (h : e.Mirrors e') : e.SameService e' := by
  rw [Engine.Mirrors] at h
  rw [h]
  exact ⟨rfl, rfl, rfl, rfl, rfl, rfl, rfl⟩

theorem Engine.Mirrors.at (h : e.Mirrors e') (now : Instant) :
    ({ e with now } : Engine).Mirrors { e' with now } := by
  rw [Engine.Mirrors] at h
  generalize e'.locks = l at h
  subst h
  rfl

/-! ## Programs -/

namespace EngineM

/-- On engines that mirror each other the second program comes to what the first
one comes to, up to a change of the result. -/
def Mirrors (g : α → β) (x : EngineM α) (y : EngineM β) : Prop :=
  ∀ e e', e.Mirrors e' →
    (y.start e').1 = (x.start e).1.map g ∧ (x.start e).2.Mirrors (y.start e').2

theorem LockFree.mirrors {x : EngineM α} (h : LockFree x) : Mirrors id x x := by
  intro e e' he
  rw [he, h e e'.locks]
  refine ⟨?_, rfl⟩
  cases (x.start e).1 <;> rfl

theorem mirrors_pure {g : α → β} {a : α} {b : β} (h : g a = b) : Mirrors g (pure a) (pure b) :=
  fun _ _ he => ⟨congrArg Except.ok h.symm, he⟩

theorem mirrors_bind {α' β' : Type} {g : α → α'} {k : β → β'} {x : EngineM α} {x' : EngineM α'}
    {f : α → EngineM β} {f' : α' → EngineM β'} (hx : Mirrors g x x')
    (hf : ∀ a, Mirrors k (f a) (f' (g a))) : Mirrors k (x >>= f) (x' >>= f') := by
  intro e e' he
  obtain ⟨hresult, hafter⟩ := hx e e' he
  rw [start_bind, start_bind]
  rcases hr : x.start e with ⟨r | a, e₁⟩
  · rw [hr] at hresult hafter
    rcases hr' : x'.start e' with ⟨r', e₁'⟩
    rw [hr'] at hresult hafter
    subst hresult
    exact ⟨rfl, hafter⟩
  · rw [hr] at hresult hafter
    rcases hr' : x'.start e' with ⟨r', e₁'⟩
    rw [hr'] at hresult hafter
    subst hresult
    exact hf a e₁ e₁' hafter

theorem mirrors_attempt {x y : EngineM α} (h : Mirrors id x y) :
    Mirrors id (attempt x) (attempt y) := by
  intro e e' he
  obtain ⟨hresult, hafter⟩ := h e e' he
  refine ⟨?_, hafter⟩
  rw [start_attempt, start_attempt, hresult]
  cases (x.start e).1 <;> rfl

theorem mirrors_leaveLock (key : String) (n n' : Nat) :
    Mirrors id (leaveLock key n v) (leaveLock key n' v') := by
  intro e e' he
  exact ⟨rfl, ((e.mirrors_locks _).symm.trans he).trans (e'.mirrors_locks _)⟩

theorem mirrors_discard (key : String) : Mirrors id (discard key) (discard key) := by
  intro e e' he
  exact ⟨rfl, ((e.mirrors_locks _).symm.trans he).trans (e'.mirrors_locks _)⟩

theorem mirrors_concludeInput (key : String) (r : Except EngineError Answered) :
    Mirrors id (concludeInput key r) (concludeInput key r) := by
  refine mirrors_bind (lockFree_count _).mirrors fun _ => ?_
  refine mirrors_bind (lockFree_count _).mirrors fun _ => ?_
  dsimp only
  split
  · exact mirrors_bind (mirrors_discard key) fun _ => (lockFree_answered key r).mirrors
  · exact (lockFree_answered key r).mirrors

/-- What an input gives back, once its section is left. -/
theorem mirrors_reply (key : String) (r : Except EngineError Answered) :
    Mirrors id (do return Reply.navigation (← concludeInput key r) (← served key) : EngineM Reply)
      (do return Reply.navigation (← concludeInput key r) (← served key) : EngineM Reply) := by
  refine mirrors_bind (mirrors_concludeInput key r) fun shown => ?_
  exact mirrors_bind (lockFree_served key).mirrors fun s => mirrors_pure rfl

end EngineM

/-! ## Phases -/

namespace Phase

open EngineM

/-- The phase with another lock in the place of that of the session. -/
def relocked (n : Nat) : Phase → Phase
  | entering call id _ => entering call id n
  | playing purpose _ left σ t => playing purpose n left σ t
  | acting purpose _ left pending t => acting purpose n left pending t
  | p => p

variable {n : Nat}

theorem mirrors_endWith {x y : EngineM Reply} (h : Mirrors id x y) :
    Mirrors (relocked n) (endWith x) (endWith y) :=
  mirrors_bind (mirrors_attempt h) fun _ => mirrors_pure rfl

theorem mirrors_conclude (key : String) (lock lock' : Nat) (r : Except EngineError Turn)
    (purpose : Purpose) :
    Mirrors id (conclude v key lock r purpose) (conclude v' key lock' r purpose) := by
  cases purpose with
  | settle c callerLock =>
      have hserved : LockFree (do servedBy (← ofResult r) : EngineM Session) :=
        lockFree_bind (lockFree_ofResult r) fun t => lockFree_served t.sessionId
      refine mirrors_bind (lockFree_attempt hserved).mirrors fun r' => ?_
      refine mirrors_bind (mirrors_leaveLock key lock lock') fun _ => ?_
      refine mirrors_bind (mirrors_leaveLock c.key callerLock callerLock) fun _ => ?_
      refine mirrors_bind (lockFree_ofResult r').mirrors fun s => ?_
      exact mirrors_bind (mirrors_discard c.key) fun _ => mirrors_pure rfl
  | answer =>
      have hshown : LockFree (do navigationOf (← ofResult r) : EngineM Navigation) :=
        lockFree_bind (lockFree_ofResult r) lockFree_navigationOf
      refine mirrors_bind (lockFree_attempt hshown).mirrors fun r' => ?_
      refine mirrors_bind (mirrors_leaveLock key lock lock') fun _ => ?_
      exact mirrors_reply key (r'.map .inl)

theorem mirrors_afterStage (purpose : Purpose) (lock left : Nat) (σ : Stage) (key : String)
    (r : Except EngineError Turn) :
    Mirrors (relocked n) (afterStage v purpose lock left σ key r)
      (afterStage v' purpose n left σ key r) := by
  cases r with
  | error err => exact mirrors_endWith (mirrors_conclude key lock n _ purpose)
  | ok t =>
      rw [afterStage, afterStage]
      cases t.next? σ with
      | none => exact mirrors_endWith (mirrors_conclude key lock n _ purpose)
      | some σ' => exact mirrors_pure rfl

theorem mirrors_playStage (purpose : Purpose) (lock left : Nat) (σ : Stage) (t : Turn) :
    Mirrors (relocked n) (playStage v purpose lock left σ t) (playStage v' purpose n left σ t) := by
  cases left with
  | zero => exact mirrors_afterStage _ _ _ _ _ _
  | succ left =>
      rw [playStage, playStage]
      by_cases hσ : σ = .dispatch
      · rw [if_pos hσ, if_pos hσ]
        refine mirrors_bind (lockFree_attempt t.lockFree_ask).mirrors fun r => ?_
        rcases r with err | - | pending
        · exact mirrors_afterStage _ _ _ _ _ _
        · exact mirrors_bind (lockFree_attempt (t.lockFree_hear none)).mirrors
            fun r => mirrors_afterStage _ _ _ _ _ _
        · exact mirrors_pure rfl
      · rw [if_neg hσ, if_neg hσ]
        exact mirrors_bind (lockFree_attempt (t.confined_perform σ).lockFree).mirrors
          fun r => mirrors_afterStage _ _ _ _ _ _

theorem mirrors_goInside (key : String) (lock : Nat) (call : Call) :
    Mirrors (relocked n) (goInside v key lock call) (goInside v' key n call) := by
  have hrefuse : ∀ r, Mirrors (relocked n) (goInside.refuse v key lock r)
      (goInside.refuse v' key n r) := fun r =>
    mirrors_endWith (mirrors_bind (mirrors_leaveLock key lock n) fun _ => mirrors_reply key r)
  cases call with
  | create c => exact mirrors_pure rfl
  | input i text =>
      refine mirrors_bind (lockFree_attempt (confined_admission key text).lockFree).mirrors
        fun r => ?_
      rcases r with err | t | status | -
      · exact hrefuse _
      · exact mirrors_pure rfl
      · exact hrefuse _
      · exact hrefuse _
  | terminate i reason =>
      refine mirrors_endWith ?_
      refine mirrors_bind (lockFree_attempt (confined_endSession key reason).lockFree).mirrors
        fun r => ?_
      refine mirrors_bind (mirrors_leaveLock key lock n) fun _ => ?_
      refine mirrors_bind (lockFree_ofResult r).mirrors fun s => ?_
      exact mirrors_bind (mirrors_discard key) fun _ => mirrors_pure rfl
  | expire i now =>
      refine mirrors_endWith ?_
      refine mirrors_bind (lockFree_attempt (confined_lapseIfDue key now).lockFree).mirrors
        fun r => ?_
      refine mirrors_bind (mirrors_leaveLock key lock n) fun _ => ?_
      refine mirrors_bind (lockFree_ofResult r).mirrors fun isDone => ?_
      cases isDone with
      | true => exact mirrors_bind (mirrors_discard key) fun _ => mirrors_pure rfl
      | false => exact mirrors_pure rfl

/-- **Mirrors.**  What an operation does in the section of its session is the same
under other locks. -/
theorem mirrors_step {p : Phase} (h : p.served?.isSome = true) :
    Mirrors (relocked n) (p.step v) ((p.relocked n).step v') := by
  cases p with
  | entering call key lock => exact mirrors_goInside key lock call
  | playing purpose lock left σ t => exact mirrors_playStage purpose lock left σ t
  | acting purpose lock left pending t =>
      exact mirrors_bind (lockFree_attempt (t.lockFree_hear (some pending))).mirrors
        fun r => mirrors_afterStage _ _ _ _ _ _
  | _ => cases h

end Phase

end UssdFlows
