import UssdFlows.Proofs.Service.Moves

/-!
# Sections of operations side by side

An operation *stands in line* (`Phase.Stands`) at the locks that it has checked
out and at no others, and comes first at those whose sections it is in.  Going
on keeps it so and leaves everybody else where they are (`Goes.stands`), so that
in every run all operations stand in line (`Service.InLine`), and no section is
visited by two of them (`InLine.alone`).
-/

namespace UssdFlows

open EngineM

variable {e e' e₁ : Engine} {u v : Visitor} {l l' : Locks} {uses : Uses} {key : String}

/-! ## Leaving several sections -/

namespace Locks

theorem number?_without (t : Locks) (v : Visitor) (uses : Uses) (key : String) :
    (t.without v uses).number? key = t.number? key := by
  induction uses with
  | nil => rfl
  | cons u rest ih => exact ih

/-- Whoever leaves the sections that he is in line for is taken out of those
lines and of no others. -/
theorem Neat.without (h : l.Neat) (hkeys : (uses.map Prod.fst).Nodup)
    (hplaced : ∀ x ∈ uses, l.number? x.1 = some x.2 ∧ v ∈ l.line x.1) :
    l.Spares v (l.without v uses) ∧ ∀ key, (l.without v uses).line key =
      if key ∈ uses.map Prod.fst then (l.line key).erase v else l.line key := by
  induction uses with
  | nil => exact ⟨h.spares v, fun key => rfl⟩
  | cons x rest ih =>
      obtain ⟨hx, hrest⟩ := List.nodup_cons.1 hkeys
      obtain ⟨hspares, hline⟩ := ih hrest fun y hy => hplaced y (List.mem_cons_of_mem _ hy)
      obtain ⟨hnumber, hmem⟩ := hplaced x (List.mem_cons_self ..)
      have hnumber' : (l.without v rest).number? x.1 = some x.2 := by
        rw [number?_without]
        exact hnumber
      have hline' : (l.without v rest).line x.1 = l.line x.1 := by
        rw [hline, if_neg hx]
      refine ⟨hspares.trans (hspares.neat.spares_quit hnumber' (by rw [hline']; exact hmem)),
        fun key => ?_⟩
      show ((l.without v rest).quit x.1 x.2 v).line key = _
      rw [line_quit hspares.neat hnumber', hline', List.map_cons]
      by_cases hkey : key = x.1
      · subst hkey
        rw [if_pos rfl, if_pos (List.mem_cons_self ..)]
      · have hmem : key ∈ x.1 :: rest.map Prod.fst ↔ key ∈ rest.map Prod.fst := by
          rw [List.mem_cons, or_iff_right hkey]
        rw [if_neg hkey, hline]
        simp only [hmem]

theorem Neat.discards (h : l.Neat) (keys : List String) (v : Visitor) :
    l.Spares v (keys.foldl Locks.discard l) ∧
      ∀ key, (keys.foldl Locks.discard l).line key = l.line key := by
  induction keys generalizing l with
  | nil => exact ⟨h.spares v, fun _ => rfl⟩
  | cons k rest ih =>
      obtain ⟨hspares, hline⟩ := ih (h.discard k)
      exact ⟨(h.spares_discard k v).trans hspares, fun key => by
        rw [List.foldl_cons, hline, line_discard h]⟩

end Locks

/-! ## Standing in line -/

namespace Phase

variable {p p' : Phase}

/-- The sections that an operation uses are different ones, and its parts go
together. -/
def Proper : Phase → Prop
  | settling c _ s t _ => t.sessionId = s.id ∧ c.key ≠ s.id
  | entering call id _ => call.session? = some id
  | playing (.settle c _) _ _ _ t | acting (.settle c _) _ _ _ t => c.key ≠ t.sessionId
  | _ => True

theorem Proper.nodup (h : p.Proper) : (p.uses.map Prod.fst).Nodup := by
  have hpair : ∀ {a b : String}, a ≠ b → [a, b].Nodup := fun hab => by simp [hab]
  cases p with
  | settling c callerLock s t lock => exact hpair h.2
  | playing purpose lock left σ t =>
      cases purpose with
      | settle c callerLock => exact hpair h
      | answer => exact List.nodup_singleton _
  | acting purpose lock left pending t =>
      cases purpose with
      | settle c callerLock => exact hpair h
      | answer => exact List.nodup_singleton _
  | opening c f lock => exact List.nodup_singleton _
  | entering call id lock => exact List.nodup_singleton _
  | ready call => exact List.nodup_nil
  | finished r => exact List.nodup_nil

/-- An operation stands in line at the locks that it has checked out, at no
others, and first where it is inside. -/
structure Stands (p : Phase) (v : Visitor) (l : Locks) : Prop where
  proper : p.Proper
  placed : ∀ x ∈ p.uses, l.number? x.1 = some x.2
  lined : ∀ key, v ∈ l.line key ↔ key ∈ p.uses.map Prod.fst
  first : ∀ key ∈ p.inside, (l.line key).head? = some v

namespace Stands

/-- What another visitor does is nothing to an operation in line. -/
theorem spared (h : p.Stands u l) (hs : l.Spares v l') (hu : u ≠ v) : p.Stands u l' where
  proper := h.proper
  placed := fun x hx => by
    have hmem : u ∈ l.line x.1 := (h.lined x.1).2 (List.mem_map_of_mem hx)
    rw [hs.number x.1 u hu hmem]
    exact h.placed x hx
  lined := fun key => (hs.mem key u hu).trans (h.lined key)
  first := fun key hkey => hs.head key u hu (h.first key hkey)

/-- An operation that can go on comes first in all the lines where it stands. -/
theorem first_of_canStep (h : p.Stands v e.locks) (hl : e.locks.Neat)
    (hcan : p.canStep v e = true) (hkey : key ∈ p.uses.map Prod.fst) :
    (e.locks.line key).head? = some v := by
  rw [canStep, Bool.and_eq_true] at hcan
  have hawaited := hcan.2
  have hhead : ∀ {k n}, (k, n) ∈ p.uses → e.locks.isInside n v = true →
      (e.locks.line k).head? = some v := fun hx hin =>
    (hl.isInside_iff (h.placed _ hx)).1 hin
  cases p with
  | ready call => exact absurd hkey List.not_mem_nil
  | finished r => exact absurd hkey List.not_mem_nil
  | opening c f lock =>
      rcases List.mem_singleton.1 hkey with rfl
      exact hhead (List.mem_singleton_self _) hawaited
  | entering call id lock =>
      rcases List.mem_singleton.1 hkey with rfl
      exact hhead (List.mem_singleton_self _) hawaited
  | settling c callerLock s t lock =>
      rcases List.mem_cons.1 hkey with rfl | hkey
      · exact h.first _ (List.mem_singleton_self _)
      · rcases List.mem_singleton.1 hkey with rfl
        exact hhead (List.mem_cons_of_mem _ (List.mem_singleton_self _)) hawaited
  | playing purpose lock left σ t => exact h.first key hkey
  | acting purpose lock left pending t => exact h.first key hkey

/-- An operation goes on within its sections. -/
theorem stay (h : p.Stands v l) (hl : l.Neat) (huses : p'.uses = p.uses) (hproper : p'.Proper)
    (hfirst : ∀ key ∈ p'.inside, (l.line key).head? = some v) :
    l.Spares v l ∧ p'.Stands v l :=
  ⟨hl.spares v, hproper, fun x hx => h.placed x (huses ▸ hx), fun k => by
    rw [huses]
    exact h.lined k, hfirst⟩

/-- An operation asks for one more section. -/
theorem join (h : p.Stands v l) (hl : l.Neat)
    (huses : p'.uses = p.uses ++ [(key, (l.join key v).1)]) (hproper : p'.Proper)
    (hfirst : ∀ k ∈ p'.inside, (l.line k).head? = some v) (hkey : key ∉ p.uses.map Prod.fst) :
    l.Spares v (l.join key v).2 ∧ p'.Stands v (l.join key v).2 := by
  have hv : v ∉ l.line key := fun hm => hkey ((h.lined key).1 hm)
  refine ⟨hl.spares_join hv, hproper, fun x hx => ?_, fun k => ?_, fun k hk => ?_⟩
  · rw [huses, List.mem_append, List.mem_singleton] at hx
    rw [Locks.number?_join]
    rcases hx with hx | rfl
    · have hne : x.1 ≠ key := fun hc => hkey (hc ▸ List.mem_map_of_mem hx)
      rw [if_neg hne]
      exact h.placed x hx
    · exact if_pos rfl
  · rw [Locks.line_join hl, huses, List.map_append, List.mem_append, ← h.lined k]
    by_cases hk : k = key
    · subst hk
      simp
    · rw [if_neg hk]
      simp [hk]
  · rw [Locks.line_join hl]
    by_cases hk' : k = key
    · subst hk'
      rw [if_pos rfl, List.head?_append, hfirst k hk]
      rfl
    · rw [if_neg hk']
      exact hfirst k hk

/-- An operation that ends stands in no line any more. -/
theorem close (h : p.Stands v e.locks) (hl : e.locks.Neat) (hc : Closes v p.uses e e')
    (r : Except EngineError Reply) :
    e.locks.Spares v e'.locks ∧ (finished r).Stands v e'.locks := by
  obtain ⟨keys, hkeys⟩ := hc.locks
  have hplaced : ∀ x ∈ p.uses, e.locks.number? x.1 = some x.2 ∧ v ∈ e.locks.line x.1 :=
    fun x hx => ⟨h.placed x hx, (h.lined x.1).2 (List.mem_map_of_mem hx)⟩
  obtain ⟨hspares, hline⟩ := hl.without h.proper.nodup hplaced
  obtain ⟨hspares', hline'⟩ := hspares.neat.discards keys v
  rw [hkeys]
  refine ⟨hspares.trans hspares', trivial, fun x hx => absurd hx List.not_mem_nil, fun k => ?_,
    fun k hk => absurd hk List.not_mem_nil⟩
  rw [hline', hline]
  refine iff_of_false (fun hm => ?_) List.not_mem_nil
  by_cases hk : k ∈ p.uses.map Prod.fst
  · rw [if_pos hk] at hm
    exact (hl.nodup k).not_mem_erase hm
  · rw [if_neg hk] at hm
    exact hk ((h.lined k).1 hm)

end Stands

/-- What is left of the sections of a turn when it goes on. -/
theorem proper_playing {purpose : Purpose} {lock left : Nat} {σ : Stage} {t t' : Turn}
    {r : Except EngineError Turn} {left' : Nat} {σ' : Stage} (h : p.Proper)
    (hp : Plays e p purpose lock left σ t r e') (hid : t'.sessionId = t.sessionId) :
    (playing purpose lock left' σ' t').Proper := by
  cases purpose with
  | answer => trivial
  | settle c callerLock =>
      show c.key ≠ t'.sessionId
      rw [hid]
      cases hp <;> exact h

/-- **Standing in line.**  An operation that goes on stands in line as before, and
the others stand where they stood. -/
theorem Goes.stands (hg : Goes v e p p' e') (h : p.Stands v e.locks) (hl : e.locks.Neat)
    (hcan : p.canStep v e = true) : e.locks.Spares v e'.locks ∧ p'.Stands v e'.locks := by
  have hfirst : ∀ key ∈ p.uses.map Prod.fst, (e.locks.line key).head? = some v :=
    fun key hkey => h.first_of_canStep hl hcan hkey
  -- a piece that takes no notice of the locks comes before each end
  have hclose : ∀ {e₁ : Engine} (r : Except EngineError Reply), e₁.locks = e.locks →
      Closes v p.uses e₁ e' → e.locks.Spares v e'.locks ∧ (finished r).Stands v e'.locks := by
    intro e₁ r hlocks hc
    rw [← hlocks] at h hl ⊢
    exact h.close hl hc r
  cases hg with
  | unserved _ => exact h.stay hl rfl trivial nofun
  | calls _ => exact h.join hl rfl trivial nofun List.not_mem_nil
  | asks hid => exact h.join hl rfl hid nofun List.not_mem_nil
  | @opens c f lock s t e₁ hopen =>
      have hlocks := (lockFree_openSession f c).locks_of_start hopen
      obtain ⟨-, -, expiry, n, rfl, -, rfl⟩ := openSession_opened hopen
      have hne := c.key_ne_sessionId e.nextSession
      rw [hlocks]
      exact h.join hl rfl ⟨rfl, hne⟩ hfirst fun hm => hne (List.mem_singleton.1 hm).symm
  | @resumes c f lock r out e₁ _ hopen _ hc =>
      exact hclose out ((lockFree_openSession f c).locks_of_start hopen) hc
  | @stores c callerLock s t lock _ hstore =>
      have hlocks := (lockFree_storeSession s).locks_of_start hstore
      obtain ⟨hid, hne⟩ : t.sessionId = s.id ∧ c.key ≠ s.id := h.proper
      have huses : (playing (.settle c callerLock) lock (Turn.stageLimit t.flow) t.entry t).uses =
          (settling c callerLock s t lock).uses := by
        show [(c.key, callerLock), (t.sessionId, lock)] = [(c.key, callerLock), (s.id, lock)]
        rw [hid]
      have hproper : c.key ≠ t.sessionId := hid ▸ hne
      rw [hlocks]
      exact h.stay hl huses hproper fun key hkey => hfirst key (huses ▸ hkey)
  | @drops c callerLock s t lock err e₁ _ hstore hc =>
      exact hclose _ ((lockFree_storeSession s).locks_of_start hstore) hc
  | @admits i text id lock t _ hadmission =>
      have hlocks := (confined_admission id text).lockFree.locks_of_start hadmission
      have huses : (playing .answer lock (Turn.stageLimit t.flow) t.entry t).uses =
          (entering (.input i text) id lock).uses := by
        obtain ⟨-, s, f, n, -, -, -, -, rfl⟩ := admission_admitted hadmission
        rfl
      rw [hlocks]
      exact h.stay hl huses trivial fun key hkey => hfirst key (huses ▸ hkey)
  | @refuses i text id lock a err e₁ _ hadmission _ hc =>
      exact hclose _ ((confined_admission id text).lockFree.locks_of_start hadmission) hc
  | @ends i reason id lock r e₁ _ hend hc =>
      exact hclose _ ((confined_endSession id reason).lockFree.locks_of_start hend) hc
  | @lapses i now id lock r e₁ _ hlapse hc =>
      exact hclose _ ((confined_lapseIfDue id now).lockFree.locks_of_start hlapse) hc
  | strays => exact absurd h.proper nofun
  | @waits purpose lock left t pending _ hask =>
      have hlocks := t.lockFree_ask.locks_of_start hask
      have hproper : (acting purpose lock left pending t).Proper := by
        cases purpose with
        | settle c callerLock => exact h.proper
        | answer => trivial
      rw [hlocks]
      exact h.stay hl rfl hproper hfirst
  | @continues _ purpose lock left σ t t' σ' _ hplays _ =>
      have hid := hplays.continues.sessionId
      have huses : (playing purpose lock left σ' t').uses = p.uses := by
        rw [hplays.uses_eq, ← hid]
        rfl
      rw [hplays.touches.2]
      exact h.stay hl huses (proper_playing h.proper hplays hid)
        fun key hkey => hfirst key (huses ▸ hkey)
  | @concludes _ purpose lock left σ t r out e₁ _ hplays _ hc _ =>
      rw [← hplays.uses_eq] at hc
      exact hclose out hplays.touches.2 hc

end Phase

/-! ## Services whose operations stand in line -/

namespace Service

variable {w : Service}

/-- All operations in progress stand in line, each as a visitor of its own, and
nobody else does. -/
structure InLine (w : Service) : Prop where
  visitors : ∀ (i : Nat) (t : Task), w.tasks[i]? = some t → t.visitor = i + 1
  neat : w.engine.locks.Neat
  stands : ∀ (i : Nat) (t : Task), w.tasks[i]? = some t →
    t.phase.Stands t.visitor w.engine.locks
  known : ∀ key v, v ∈ w.engine.locks.line key →
    ∃ (i : Nat) (t : Task), w.tasks[i]? = some t ∧ t.visitor = v

theorem IsQuiet.finished (hq : w.IsQuiet) {i : Nat} {t : Task} (ht : w.tasks[i]? = some t) :
    ∃ r, t.phase = .finished r :=
  Phase.finished_of_isFinished (hq t (List.mem_of_getElem? ht))

/-- Nobody has to stand in line while no operation is in progress. -/
theorem IsQuiet.inLine (hq : w.IsQuiet)
    (hv : ∀ (i : Nat) (t : Task), w.tasks[i]? = some t → t.visitor = i + 1)
    (hidle : w.engine.locks.Idle) : w.InLine where
  visitors := hv
  neat := hidle.neat
  stands := fun i t ht => by
    obtain ⟨r, hr⟩ := hq.finished ht
    rw [hr]
    refine ⟨trivial, fun x hx => absurd hx List.not_mem_nil, fun key => ?_,
      fun key hkey => absurd hkey List.not_mem_nil⟩
    rw [hidle.line key]
    exact iff_of_false List.not_mem_nil List.not_mem_nil
  known := fun key v hv => by
    rw [hidle.line key] at hv
    exact absurd hv List.not_mem_nil

theorem inLine_of_idle {e : Engine} (h : e.locks.Idle) (published : List Flow) :
    (⟨e, [], published⟩ : Service).InLine :=
  IsQuiet.inLine (fun _ ht => absurd ht List.not_mem_nil) (fun _ _ ht => absurd ht nofun) h

namespace InLine

/-- **Exclusion.**  Of all operations in progress only one comes first in the line
of a section. -/
theorem alone (h : w.InLine) {key : String} {i j : Nat} {t u : Task} (ht : w.tasks[i]? = some t)
    (hu : w.tasks[j]? = some u) (hi : (w.engine.locks.line key).head? = some t.visitor)
    (hj : (w.engine.locks.line key).head? = some u.visitor) : i = j := by
  have hvisitor : t.visitor = u.visitor := Option.some.inj (hi.symm.trans hj)
  rw [h.visitors i t ht, h.visitors j u hu] at hvisitor
  exact Nat.succ.inj hvisitor

/-- An operation that can go on shares none of its sections with another one that
is inside. -/
theorem ne_of_inside (h : w.InLine) {i j : Nat} {t u : Task} (ht : w.tasks[i]? = some t)
    (hcan : t.phase.canStep t.visitor w.engine = true) (hu : w.tasks[j]? = some u) (hij : j ≠ i)
    {key : String} (hkey : key ∈ t.phase.uses.map Prod.fst) : key ∉ u.phase.inside := fun hin =>
  hij (h.alone hu ht ((h.stands j u hu).first key hin)
    ((h.stands i t ht).first_of_canStep h.neat hcan hkey))

theorem begin (h : w.InLine) (call : Call) : (w.begin call).InLine := by
  have hkept : ∀ {i : Nat} {t : Task}, w.tasks[i]? = some t →
      (w.begin call).tasks[i]? = some t := by
    intro i t ht
    obtain ⟨hi, -⟩ := List.getElem?_eq_some_iff.1 ht
    rw [Service.begin, List.getElem?_append_left hi]
    exact ht
  refine ⟨fun i t ht => ?_, h.neat, fun i t ht => ?_, fun key v hv => ?_⟩
  · rcases begin_cases ht with ht | ⟨rfl, rfl⟩
    · exact h.visitors i t ht
    · rfl
  · rcases begin_cases ht with ht | ⟨rfl, rfl⟩
    · exact h.stands i t ht
    · refine ⟨trivial, fun x hx => absurd hx List.not_mem_nil, fun key => ?_,
        fun key hkey => absurd hkey List.not_mem_nil⟩
      refine iff_of_false (fun hv => ?_) List.not_mem_nil
      obtain ⟨j, u, hu, hvisitor⟩ := h.known key _ hv
      obtain ⟨hj, -⟩ := List.getElem?_eq_some_iff.1 hu
      rw [h.visitors j u hu] at hvisitor
      exact absurd (Nat.succ.inj hvisitor) (Nat.ne_of_lt hj)
  · obtain ⟨i, t, ht, hvisitor⟩ := h.known key v hv
    exact ⟨i, t, hkept ht, hvisitor⟩

/-- Whatever leaves the locks alone leaves the operations in line. -/
theorem of_locks (h : w.InLine) {e : Engine} (hlocks : e.locks = w.engine.locks)
    (published : List Flow) : (⟨e, w.tasks, published⟩ : Service).InLine where
  visitors := h.visitors
  neat := by
    rw [hlocks]
    exact h.neat
  stands := fun i t ht => by
    rw [hlocks]
    exact h.stands i t ht
  known := fun key v hv => by
    rw [hlocks] at hv
    exact h.known key v hv

theorem set (h : w.InLine) {i : Nat} {t : Task} {p : Phase} {e' : Engine}
    (ht : w.tasks[i]? = some t) (hcan : t.phase.canStep t.visitor w.engine = true)
    (hg : t.phase.Goes t.visitor w.engine p e') :
    (⟨e', w.tasks.set i { t with phase := p }, w.published⟩ : Service).InLine := by
  obtain ⟨hspares, hstands⟩ := hg.stands (h.stands i t ht) h.neat hcan
  obtain ⟨hi, -⟩ := List.getElem?_eq_some_iff.1 ht
  have hself : (w.tasks.set i { t with phase := p })[i]? = some { t with phase := p } := by
    rw [List.getElem?_set, if_pos rfl, if_pos hi]
  have hother : ∀ {j}, j ≠ i → (w.tasks.set i { t with phase := p })[j]? = w.tasks[j]? := by
    intro j hj
    rw [List.getElem?_set, if_neg (Ne.symm hj)]
  refine ⟨fun j u hu => ?_, hspares.neat, fun j u hu => ?_, fun key v hv => ?_⟩
  · by_cases hj : j = i
    · subst hj
      cases hself.symm.trans hu
      exact h.visitors j t ht
    · rw [hother hj] at hu
      exact h.visitors j u hu
  · by_cases hj : j = i
    · subst hj
      cases hself.symm.trans hu
      exact hstands
    · rw [hother hj] at hu
      refine (h.stands j u hu).spared hspares ?_
      rw [h.visitors j u hu, h.visitors i t ht]
      exact fun hc => hj (Nat.succ.inj hc)
  · by_cases hvt : v = t.visitor
    · exact ⟨i, _, hself, hvt.symm⟩
    · obtain ⟨j, u, hu, hvisitor⟩ := h.known key v ((hspares.mem key v hvt).1 hv)
      have hj : j ≠ i := by
        rintro rfl
        rw [ht] at hu
        cases hu
        exact hvt hvisitor.symm
      exact ⟨j, u, by rw [hother hj]; exact hu, hvisitor⟩

theorem proceed (h : w.InLine) (i : Nat) : (w.proceed i).InLine := by
  rcases proceed_cases w i with ⟨hsame, -⟩ | ⟨t, p, e', ht, hcan, -, hg, hgoes, -⟩
  · rw [hsame]
    exact h
  · rw [hgoes]
    exact h.set ht hcan hg

theorem foldl_proceed (h : w.InLine) (is : List Nat) : (is.foldl Service.proceed w).InLine := by
  induction is generalizing w with
  | nil => exact h
  | cons i rest ih => exact ih (h.proceed i)

/-- **Runs.**  After every move the operations in progress stand in line. -/
theorem make (h : w.InLine) (m : Move) : (w.make m).InLine := by
  cases m with
  | turnClock now => exact h.of_locks (e := { w.engine with now }) rfl _
  | publish f =>
      obtain ⟨e₁, registry, -, hlocks, hstart⟩ := start_publish f w.engine
      refine h.of_locks ?_ _
      rw [hstart]
      exact hlocks
  | drop retention now =>
      exact h.of_locks (e := { w.engine with store := w.engine.store.dropStale retention now }) rfl _
  | begin call => exact h.begin call
  | proceed i => exact h.proceed i

theorem after (h : w.InLine) (ms : List Move) : (w.after ms).InLine := by
  induction ms generalizing w with
  | nil => exact h
  | cons m ms ih => exact ih (h.make m)

end InLine

theorem inLine_fresh (settings : Settings) (sink : Option Sink) (executor : Option Executor)
    (now : Instant) : (fresh settings sink executor now).InLine := inLine_of_idle Locks.idle_empty []

/-- No operation uses the section of a key. -/
def IsFree (w : Service) (key : String) : Prop :=
  ∀ (i : Nat) (t : Task), w.tasks[i]? = some t → key ∉ t.phase.uses.map Prod.fst

/-- No operation uses any section while none is in progress. -/
theorem IsQuiet.isFree (hq : w.IsQuiet) (key : String) : w.IsFree key := by
  intro i t ht
  obtain ⟨r, hr⟩ := hq.finished ht
  rw [hr]
  exact List.not_mem_nil

/-- Nobody stands in the line of a section that no operation uses. -/
theorem InLine.line_of_isFree (h : w.InLine) {key : String} (hfree : w.IsFree key) :
    w.engine.locks.line key = [] := by
  refine List.eq_nil_iff_forall_not_mem.2 fun v hv => ?_
  obtain ⟨i, t, ht, rfl⟩ := h.known key v hv
  exact hfree i t ht (((h.stands i t ht).lined key).1 hv)

/-- Nobody uses the locks while no operation is in progress. -/
theorem InLine.idle (h : w.InLine) (hq : w.IsQuiet) : w.engine.locks.Idle :=
  ⟨h.neat, fun key => h.line_of_isFree (hq.isFree key)⟩

end Service

end UssdFlows
