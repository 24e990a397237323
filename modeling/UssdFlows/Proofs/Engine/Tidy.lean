import UssdFlows.Proofs.Engine.Confined
import UssdFlows.Proofs.Locks.Lines

/-!
# Operations that leave the locks idle

An operation that is performed while nothing else is going on *holds* the locks of
the sections it is in (`Locks.Held`) and nobody else stands in line.  Each section
is left when its program is over, so the operation leaves the locks as idle as it
found them (`tidy_createSession` and those after it).
-/

namespace UssdFlows

open EngineM

variable {α β : Type} {uses : List (String × Nat)} {key : String} {n : Nat} {t : Locks}

/-! ## Held locks -/

namespace Locks

/-- The locks of some sections are held, and nobody else stands in line. -/
structure Held (uses : List (String × Nat)) (t : Locks) : Prop where
  neat : t.Neat
  number : ∀ x ∈ uses, t.number? x.1 = some x.2
  line : ∀ key, t.line key = if key ∈ uses.map Prod.fst then [solo] else []

theorem held_nil_iff : t.Held [] ↔ t.Idle :=
  ⟨fun h => ⟨h.neat, h.line⟩, fun h => ⟨h.neat, fun _ hx => absurd hx List.not_mem_nil, h.line⟩⟩

theorem Held.join (h : t.Held uses) (hkey : key ∉ uses.map Prod.fst) :
    (t.join key solo).2.Held ((key, (t.join key solo).1) :: uses) := by
  have hempty : t.line key = [] := by
    rw [h.line, if_neg hkey]
  refine ⟨h.neat.join (by rw [hempty]; exact List.not_mem_nil), fun x hx => ?_, fun k => ?_⟩
  · rw [number?_join]
    rcases List.mem_cons.1 hx with rfl | hrest
    · exact if_pos rfl
    · have hne : x.1 ≠ key := by
        rintro rfl
        exact hkey (List.mem_map_of_mem hrest)
      rw [if_neg hne]
      exact h.number x hrest
  · rw [line_join h.neat, h.line k, hempty, List.map_cons]
    by_cases hk : k = key
    · subst hk
      rw [if_pos rfl, if_pos (List.mem_cons_self ..)]
      rfl
    · rw [if_neg hk]
      simp only [List.mem_cons, hk, false_or]

theorem Held.quit (h : t.Held ((key, n) :: uses)) (hkey : key ∉ uses.map Prod.fst) :
    (t.quit key n solo).Held uses := by
  have hnumber : t.number? key = some n := h.number _ (List.mem_cons_self ..)
  have hline : t.line key = [solo] := by
    rw [h.line, List.map_cons, if_pos (List.mem_cons_self ..)]
  refine ⟨h.neat.quit hnumber (by rw [hline]; exact List.mem_singleton_self _), fun x hx => ?_,
    fun k => ?_⟩
  · exact h.number x (List.mem_cons_of_mem _ hx)
  · rw [line_quit h.neat hnumber, hline]
    by_cases hk : k = key
    · subst hk
      rw [if_pos rfl, if_neg hkey]
      rfl
    · rw [if_neg hk, h.line, List.map_cons]
      simp only [List.mem_cons, hk, false_or]

theorem Held.discard (h : t.Held []) (key : String) : (t.discard key).Held [] :=
  ⟨h.neat.discard key, fun _ hx => absurd hx List.not_mem_nil, fun k => by
    rw [line_discard h.neat, h.line]⟩

end Locks

/-! ## Tidy programs -/

namespace EngineM

/-- A program leaves the locks held as they were. -/
def Tidy (uses : List (String × Nat)) (x : EngineM α) : Prop :=
  ∀ e : Engine, e.locks.Held uses → (x.start e).2.locks.Held uses

theorem LockFree.tidy {x : EngineM α} (h : LockFree x) : Tidy uses x := fun e he => by
  rw [h.locks]
  exact he

theorem Tidy.bind {x : EngineM α} {f : α → EngineM β} (hx : Tidy uses x)
    (hf : ∀ e a e', x.start e = (.ok a, e') → Tidy uses (f a)) : Tidy uses (x >>= f) :=
  fun e he => state_bind (P := fun e => e.locks.Held uses) (hx e he) fun a e' hstart =>
    hf e a e' hstart e'

theorem Tidy.attempt {x : EngineM α} (h : Tidy uses x) : Tidy uses (EngineM.attempt x) := h

theorem tidy_discard (key : String) : Tidy [] (discard key) := fun _ he => he.discard key

/-- A section is left when its program is over. -/
theorem tidy_hold {x : EngineM α} (hkey : key ∉ uses.map Prod.fst)
    (hx : ∀ n, Tidy ((key, n) :: uses) x) : Tidy uses (hold key x) := by
  intro e he
  rw [start_hold]
  exact (hx _ { e with locks := (e.locks.join key solo).2 } (he.join hkey)).quit hkey

end EngineM

/-! ## Whole operations -/

theorem lockFree_run (limit : Nat) (σ : Stage) (t : Turn) : LockFree (Turn.run limit σ t) := by
  induction limit generalizing σ t with
  | zero => exact lockFree_throw _
  | succ limit ih =>
      refine lockFree_bind (t.confined_perform σ).lockFree fun t' => ?_
      cases t'.next? σ with
      | none => exact lockFree_pure t'
      | some σ' => exact ih σ' t'

theorem tidy_settleSession {s : Session} {t : Turn} (hkey : s.id ∉ uses.map Prod.fst) :
    Tidy uses (settleSession s t) := by
  refine tidy_hold hkey fun n => (lockFree_storeSession s).tidy.bind fun _ _ _ _ => ?_
  exact (lockFree_run _ _ t).tidy.bind fun _ t' _ _ => (lockFree_served t'.sessionId).tidy

theorem tidy_findOrOpen (f : Flow) (c : Caller) (n : Nat) :
    Tidy [(c.key, n)] (findOrOpen f c) := by
  refine (lockFree_openSession f c).tidy.bind fun e opening e' hopen => ?_
  rcases opening with s | ⟨s, t⟩
  · exact (lockFree_pure _).tidy
  · -- the section of the new session is another one
    obtain ⟨-, -, expiry, node, rfl, -⟩ := openSession_opened hopen
    refine (tidy_settleSession fun hmem => ?_).bind fun _ _ _ _ => (lockFree_pure _).tidy
    exact c.key_ne_sessionId e.nextSession (List.mem_singleton.1 hmem).symm

theorem tidy_createSession (c : Caller) : Tidy [] (createSession c) := by
  have hflow : LockFree (currentFlow c.flowId) :=
    lockFree_get_bind (fun _ => lockFree_ofOption _ _) fun _ _ => rfl
  refine hflow.tidy.bind fun _ f _ _ => ?_
  refine (tidy_hold List.not_mem_nil (tidy_findOrOpen f c)).bind fun _ opening _ _ => ?_
  dsimp only
  split
  · exact (tidy_discard c.key).bind fun _ _ _ _ => (lockFree_pure _).tidy
  · exact (lockFree_pure _).tidy

theorem lockFree_answerInput (id text : String) : LockFree (answerInput id text) := by
  refine lockFree_bind (confined_admission id text).lockFree fun a => ?_
  rcases a with t | status | -
  · exact lockFree_bind (lockFree_run _ _ t) fun t' =>
      lockFree_bind (lockFree_navigationOf t') fun _ => lockFree_pure _
  · exact lockFree_pure _
  · exact lockFree_pure _

theorem tidy_processInput (id text : String) : Tidy [] (processInput id text) := by
  refine (tidy_hold List.not_mem_nil fun n => (lockFree_answerInput id text).tidy).attempt.bind
    fun _ r _ _ => ?_
  refine (lockFree_count _).tidy.bind fun _ _ _ _ => (lockFree_count _).tidy.bind fun _ _ _ _ => ?_
  dsimp only
  split
  · exact (tidy_discard id).bind fun _ _ _ _ => (lockFree_answered id r).tidy
  · exact (lockFree_answered id r).tidy

theorem tidy_terminateSession (id reason : String) : Tidy [] (terminateSession id reason) := by
  refine (tidy_hold List.not_mem_nil fun n => (confined_endSession id reason).lockFree.tidy).bind
    fun _ s _ _ => ?_
  exact (tidy_discard id).bind fun _ _ _ _ => (lockFree_pure s).tidy

theorem tidy_expireSession (id : String) (now : Instant) : Tidy [] (expireSession id now) := by
  refine (tidy_hold List.not_mem_nil fun n => (confined_lapseIfDue id now).lockFree.tidy).bind
    fun _ isDone _ _ => ?_
  cases isDone with
  | true => exact (tidy_discard id).bind fun _ _ _ _ => (lockFree_pure true).tidy
  | false => exact (lockFree_pure false).tidy

theorem tidy_expireEach (now : Instant) (ids : List String) : Tidy [] (expireEach now ids) := by
  induction ids with
  | nil => exact (lockFree_pure 0).tidy
  | cons id rest ih =>
      exact (tidy_expireSession id now).bind fun _ isDone _ _ =>
        ih.bind fun _ count _ _ => (lockFree_pure _).tidy

theorem tidy_sweep (retention : Int) (now : Instant) : Tidy [] (sweep retention now) := by
  intro e he
  rw [sweep, start_bind_of_ok (start_get e)]
  refine ((tidy_expireEach now _).bind fun _ count _ _ => ?_) e he
  have hdrop : LockFree (modify fun e => { e with store := e.store.dropStale retention now } :
      EngineM Unit) := fun _ _ => rfl
  exact (lockFree_bind hdrop fun _ => lockFree_pure count).tidy

end UssdFlows
