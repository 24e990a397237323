import UssdFlows.Proofs.Flow.Verdict
import UssdFlows.Proofs.Service.Leavings

/-!
# The locks that are left over

While no operation is in progress there is a lock for each active session, and one for
each key whose lock was abandoned by the operation that has used it last
(`Service.abandoned`); there are no others, and no key is both
(`Service.locks_active_or_abandoned`).  So the locks are bounded by the active sessions
just in those runs that abandon none.

A lock may be in any state while an operation uses its section.  What is kept by each
step is therefore said of the other keys only (`Service.Tended`).
-/

namespace UssdFlows

open EngineM

variable {e e' : Engine} {v : Visitor} {key : String} {idle : List String}

/-! ## Leavings -/

/-- The sections that an operation has used which is over with its next step, and whether
it abandons their locks. -/
def Task.leavings (t : Task) (e : Engine) : List (String × Bool) :=
  match (t.phase.step t.visitor).start e with
  | (.ok (.finished out), e') => t.phase.uses.map fun u => (u.1, t.phase.abandons e e' out u.1)
  | _ => []

/-- The abandoned locks when the lock of one more section was left. -/
def leave (idle : List String) (x : String × Bool) : List String :=
  if x.2 then x.1 :: idle.filter (· ≠ x.1) else idle.filter (· ≠ x.1)

theorem mem_leave {x : String × Bool} :
    key ∈ leave idle x ↔ if key = x.1 then x.2 = true else key ∈ idle := by
  obtain ⟨k, isAbandoned⟩ := x
  by_cases hkey : key = k <;> cases isAbandoned <;> simp [leave, hkey]

theorem nodup_leave (h : idle.Nodup) (x : String × Bool) : (leave idle x).Nodup := by
  rw [leave]
  split
  · exact List.nodup_cons.2 ⟨by simp, h.filter _⟩
  · exact h.filter _

theorem nodup_foldl_leave (h : idle.Nodup) (xs : List (String × Bool)) :
    (xs.foldl leave idle).Nodup := by
  induction xs generalizing idle with
  | nil => exact h
  | cons x xs ih => exact ih (nodup_leave h x)

/-- Only the sections that were used make a difference. -/
theorem mem_foldl_leave (key : String) (f : String → Bool) (uses : Uses) (idle : List String) :
    key ∈ (uses.map fun u => (u.1, f u.1)).foldl leave idle ↔
      if key ∈ uses.map Prod.fst then f key = true else key ∈ idle := by
  induction uses generalizing idle with
  | nil => simp
  | cons u uses ih =>
      rw [List.map_cons, List.foldl_cons, ih, mem_leave]
      by_cases hkey : key = u.1
      · subst hkey
        by_cases huses : u.1 ∈ uses.map Prod.fst <;> simp [huses]
      · simp only [List.map_cons, List.mem_cons, hkey, false_or, if_false]

/-! ## Keys of locks and of active sessions -/

namespace Locks

theorem nodup_keys (t : Locks) : t.keys.Nodup := t.table.nodup

theorem mem_keys_iff (t : Locks) (key : String) :
    key ∈ t.keys ↔ (t.number? key).isSome = true := by
  rw [keys, ← KeyedList.contains_iff, KeyedList.contains, number?, Option.isSome_map]

end Locks

namespace SessionStore

theorem nodup_active (t : SessionStore) : t.active.Nodup :=
  t.sessions.nodup.sublist (List.filter_sublist.map _)

theorem mem_active_iff (t : SessionStore) (id : String) :
    id ∈ t.active ↔ (t.get? id).any Session.isActive = true := by
  rw [Option.any_eq_true, active, List.mem_map]
  constructor
  · rintro ⟨s, hs, rfl⟩
    obtain ⟨hmem, ha⟩ := List.mem_filter.1 hs
    exact ⟨s, KeyedList.find?_of_mem hmem, ha⟩
  · rintro ⟨s, hget, ha⟩
    obtain ⟨hmem, hid⟩ := KeyedList.find?_eq_some_iff.1 hget
    exact ⟨s, List.mem_filter.2 ⟨hmem, ha⟩, hid⟩

end SessionStore

/-! ## One step -/

/-- The session of a key is active, or its lock was abandoned, just if the key has a lock,
and not both. -/
structure Engine.Warrants (e : Engine) (idle : List String) (key : String) : Prop where
  kept : (e.locks.number? key).isSome = true ↔ e.hasActive key = true ∨ key ∈ idle
  apart : key ∈ idle → e.hasActive key = false

/-- Dropping stale sessions drops no active one. -/
theorem Engine.hasActive_dropStale (e : Engine) (retention : Int) (now : Instant) (id : String) :
    ({ e with store := e.store.dropStale retention now } : Engine).hasActive id =
      e.hasActive id := by
  show ((e.store.dropStale retention now).get? id).any Session.isActive = _
  rw [SessionStore.get?_dropStale, hasActive]
  cases hget : e.store.get? id with
  | none => rfl
  | some s =>
      rw [Option.filter_some]
      split
      · rfl
      · rename_i hdropped
        cases ha : s.isActive with
        | true => exact absurd (by rw [SessionStore.isStale, ha]; rfl) hdropped
        | false => simp [ha]

namespace Phase

variable {p p' : Phase} {out : Except EngineError Reply} {keys : List String}

/-- An operation that goes on without being over stays in its sections, and makes locks
for its own sections only. -/
theorem Goes.uses_subset (hg : Goes v e p p' e') (hp' : p'.isFinished = false)
    (hproper : p.Proper) :
    (∀ key ∈ p.uses.map Prod.fst, key ∈ p'.uses.map Prod.fst) ∧
      ∀ key, key ∉ p'.uses.map Prod.fst → e'.locks.number? key = e.locks.number? key := by
  have hjoin : ∀ {l : Locks} {k : String}, k ∈ p'.uses.map Prod.fst →
      ∀ key, key ∉ p'.uses.map Prod.fst → (l.join k v).2.number? key = l.number? key := by
    intro l k hk key hkey
    have hne : key ≠ k := by
      rintro rfl
      exact hkey hk
    rw [Locks.number?_join, if_neg hne]
  cases hg with
  | calls _ => exact ⟨fun _ hkey => absurd hkey List.not_mem_nil, hjoin (List.mem_singleton_self _)⟩
  | asks _ => exact ⟨fun _ hkey => absurd hkey List.not_mem_nil, hjoin (List.mem_singleton_self _)⟩
  | @opens c f lock s t e₁ hopen =>
      have hlocks := (lockFree_openSession f c).locks_of_start hopen
      refine ⟨fun key hkey => List.mem_cons.2 (Or.inl (List.mem_singleton.1 hkey)), ?_⟩
      rw [hlocks]
      exact hjoin (List.mem_cons_of_mem _ (List.mem_singleton_self _))
  | @stores c callerLock s t lock _ hstore =>
      have hlocks := (lockFree_storeSession s).locks_of_start hstore
      obtain ⟨hid, -⟩ : t.sessionId = s.id ∧ c.key ≠ s.id := hproper
      rw [hlocks]
      refine ⟨fun key hkey => ?_, fun _ _ => rfl⟩
      show key ∈ [c.key, t.sessionId]
      rw [hid]
      exact hkey
  | @admits i text id lock t _ hadmission =>
      obtain ⟨rfl, s, f, n, -, -, -, -, rfl⟩ := admission_admitted hadmission
      exact ⟨fun _ hkey => hkey, fun _ _ => rfl⟩
  | @waits purpose lock left t pending _ hask =>
      have hlocks := t.lockFree_ask.locks_of_start hask
      rw [hlocks]
      exact ⟨fun _ hkey => hkey, fun _ _ => rfl⟩
  | @continues _ purpose lock left σ t t' σ' _ hplays _ =>
      have huses : (playing purpose lock left σ' t').uses = p.uses := by
        rw [hplays.uses_eq, ← hplays.continues.sessionId]
        rfl
      rw [hplays.touches.2, huses]
      exact ⟨fun _ hkey => hkey, fun _ _ => rfl⟩
  | _ => cases hp'

/-- An operation that is over has left the locks of other sections alone. -/
theorem Leaves.number?_of_not_mem (h : Leaves v e p out e' keys)
    (hkey : key ∉ p.uses.map Prod.fst) : e'.locks.number? key = e.locks.number? key := by
  rw [h.locks, Locks.number?_discards_of_not_mem _ fun hmem => hkey (h.own key hmem),
    Locks.number?_without]

/-- Where nobody stands in line any more, an operation that is over has forgotten all locks
but those of active sessions and those that it abandons. -/
theorem Leaves.number?_of_mem (h : Leaves v e p out e' keys) (hstands : p.Stands v e.locks)
    (hneat : e.locks.Neat) (hkey : key ∈ p.uses.map Prod.fst) (hline : e'.locks.line key = []) :
    (e'.locks.number? key).isSome = true ↔
      e'.hasActive key = true ∨ p.abandons e e' out key = true := by
  have hplaced : ∀ x ∈ p.uses, e.locks.number? x.1 = some x.2 ∧ v ∈ e.locks.line x.1 :=
    fun x hx => ⟨hstands.placed x hx, (hstands.lined x.1).2 (List.mem_map_of_mem hx)⟩
  have hneat' := (hneat.without hstands.proper.nodup hplaced).1.neat
  rw [← h.kept key hkey]
  by_cases hmem : key ∈ keys
  · rw [h.locks, (hneat'.discards keys v).2] at hline
    rw [h.locks, hneat'.number?_discards hline hmem]
    exact iff_of_false Bool.false_ne_true fun hno => hno hmem
  · obtain ⟨x, hx, rfl⟩ := List.mem_map.1 hkey
    rw [h.locks, Locks.number?_discards_of_not_mem _ hmem, Locks.number?_without,
      hstands.placed x hx]
    exact iff_of_true rfl hmem

/-- When an operation has gone on, there is reason for the locks of all sections that
nobody uses any more. -/
theorem Goes.warrants (hg : Goes v e p p' e') (hstart : (p.step v).start e = (.ok p', e'))
    (hstands : p.Stands v e.locks) (hneat : e.locks.Neat) (ha : p.Attends e) (hplain : p.IsPlain)
    (hreplaced : e.replaced = []) (hcallers : ∀ c : Caller, e'.hasActive c.key = false)
    (hkey : key ∉ p'.uses.map Prod.fst) (hline : e'.locks.line key = [])
    (h : key ∉ p.uses.map Prod.fst → e.Warrants idle key) :
    e'.Warrants (((⟨v, p⟩ : Task).leavings e).foldl leave idle) key := by
  have hothers : key ∉ p.uses.map Prod.fst → e'.hasActive key = e.hasActive key := by
    intro hno
    unfold Engine.hasActive
    rw [(hg.does ha hreplaced).others fun hsubject => hno (mem_uses_of_subject? hsubject)]
  cases hp' : p'.isFinished with
  | false =>
      have hnone : (⟨v, p⟩ : Task).leavings e = [] := by
        rw [Task.leavings, hstart]
        cases p' with
        | finished r => cases hp'
        | _ => rfl
      obtain ⟨hsubset, hnumber⟩ := hg.uses_subset hp' hstands.proper
      have hno : key ∉ p.uses.map Prod.fst := fun hmem => hkey (hsubset key hmem)
      obtain ⟨hkept, hapart⟩ := h hno
      rw [hnone]
      exact ⟨by rw [hnumber key hkey, hothers hno]; exact hkept, by rw [hothers hno]; exact hapart⟩
  | true =>
      obtain ⟨out, rfl⟩ := finished_of_isFinished hp'
      have hleavings : (⟨v, p⟩ : Task).leavings e =
          p.uses.map fun u => (u.1, p.abandons e e' out u.1) := by
        rw [Task.leavings, hstart]
      obtain ⟨keys, hleaves⟩ := hg.leaves hstart hstands.proper ha hplain hcallers
      have hmem := mem_foldl_leave key (p.abandons e e' out) p.uses idle
      rw [← hleavings] at hmem
      by_cases huses : key ∈ p.uses.map Prod.fst
      · rw [if_pos huses] at hmem
        refine ⟨?_, fun hab => hleaves.abandoned key huses (hmem.1 hab)⟩
        rw [hmem]
        exact hleaves.number?_of_mem hstands hneat huses hline
      · rw [if_neg huses] at hmem
        obtain ⟨hkept, hapart⟩ := h huses
        refine ⟨?_, fun hab => ?_⟩
        · rw [hmem, hleaves.number?_of_not_mem huses, hothers huses]
          exact hkept
        · rw [hothers huses]
          exact hapart (hmem.1 hab)

end Phase

/-! ## Runs -/

namespace Service

variable {w : Service}

/-- What the operations that were over in a run have left. -/
def leavings (w : Service) (ms : List Move) : List (String × Bool) :=
  w.log (fun _ t e => t.leavings e) ms

/-- The keys whose locks were abandoned by the operations that have used them last. -/
def abandoned (w : Service) (ms : List Move) : List String := (w.leavings ms).foldl leave []

/-- No session has the key of a caller. -/
theorem Reachable.hasActive_key (hw : w.Reachable) (c : Caller) :
    w.engine.hasActive c.key = false := by
  rw [← Bool.not_eq_true]
  intro hactive
  obtain ⟨s, hget, -⟩ := Engine.exists_of_hasActive hactive
  obtain ⟨L, hsound⟩ := hw.sound
  obtain ⟨-, ⟨n, -, hid⟩, -⟩ := hsound.engine.stored hget
  exact c.key_ne_sessionId n hid

/-- There is reason for all locks that nobody uses. -/
structure Tended (w : Service) (idle : List String) : Prop where
  orderly : w.Orderly
  reachable : w.Reachable
  plain : ∀ (i : Nat) (t : Task), w.tasks[i]? = some t → t.phase.IsPlain
  nodup : idle.Nodup
  warrants : ∀ key, w.IsFree key → w.engine.Warrants idle key

namespace Tended

theorem proceed (h : w.Tended idle) (i : Nat) :
    (w.proceed i).Tended
      ((noted (fun _ t e => t.leavings e) w (.proceed i)).foldl leave idle) := by
  have horderly := h.orderly.proceed i
  have hreachable := h.reachable.step (.proceed w i)
  rcases proceed_cases w i with ⟨hsame, hnote⟩ | ⟨t, p, e', ht, hcan, hstart, hg, hgoes, hnote⟩
  · rw [hsame, hnote]
    exact h
  · obtain ⟨hi, -⟩ := List.getElem?_eq_some_iff.1 ht
    have hplain := h.plain i t ht
    rw [hnote]
    rw [hgoes] at horderly hreachable ⊢
    refine ⟨horderly, hreachable, fun j u hu => ?_, nodup_foldl_leave h.nodup _,
      fun key hfree => ?_⟩
    · rcases set_cases hu with ⟨-, rfl⟩ | ⟨-, hu⟩
      · exact hg.isPlain hplain
      · exact h.plain j u hu
    · have hself : key ∉ p.uses.map Prod.fst :=
        hfree i { t with phase := p } (by rw [List.getElem?_set, if_pos rfl, if_pos hi])
      refine hg.warrants hstart (h.orderly.inLine.stands i t ht) h.orderly.inLine.neat
        (h.orderly.attends i t ht) hplain h.orderly.plain hreachable.hasActive_key hself
        (horderly.inLine.line_of_isFree hfree) fun hno => h.warrants key fun j u hu => ?_
      by_cases hji : j = i
      · subst hji
        cases ht.symm.trans hu
        exact hno
      · exact hfree j u (by rw [List.getElem?_set, if_neg (Ne.symm hji)]; exact hu)

/-- Whatever changes neither locks nor active sessions leaves the reasons for all locks. -/
theorem of_engine (h : w.Tended idle) {e : Engine} {published : List Flow}
    (horderly : (⟨e, w.tasks, published⟩ : Service).Orderly)
    (hreachable : (⟨e, w.tasks, published⟩ : Service).Reachable)
    (hlocks : e.locks = w.engine.locks) (hactive : ∀ id, e.hasActive id = w.engine.hasActive id) :
    (⟨e, w.tasks, published⟩ : Service).Tended idle where
  orderly := horderly
  reachable := hreachable
  plain := h.plain
  nodup := h.nodup
  warrants := fun key hfree => by
    obtain ⟨hkept, hapart⟩ := h.warrants key hfree
    refine ⟨?_, ?_⟩
    · rw [hlocks, hactive]
      exact hkept
    · rw [hactive]
      exact hapart

theorem make (h : w.Tended idle) (m : Move) :
    (w.make m).Tended ((noted (fun _ t e => t.leavings e) w m).foldl leave idle) := by
  have horderly := h.orderly.make m
  have hreachable := h.reachable.step (step_make w m)
  cases m with
  | turnClock now => exact h.of_engine horderly hreachable rfl fun id => rfl
  | publish f =>
      refine h.of_engine horderly hreachable ?_ (Engine.hasActive_congr (store_publish f w.engine))
      obtain ⟨e₁, registry, -, hlocks, hstart⟩ := start_publish f w.engine
      rw [hstart]
      exact hlocks
  | drop retention now =>
      refine h.of_engine horderly hreachable rfl fun id => ?_
      exact w.engine.hasActive_dropStale retention now id
  | begin call =>
      refine ⟨horderly, hreachable, fun i t ht => ?_, h.nodup, fun key hfree => ?_⟩
      · rcases begin_cases ht with ht | ⟨-, rfl⟩
        · exact h.plain i t ht
        · trivial
      · refine h.warrants key fun i t ht => hfree i t ?_
        obtain ⟨hi, -⟩ := List.getElem?_eq_some_iff.1 ht
        exact (List.getElem?_append_left hi).trans ht
  | proceed i => exact h.proceed i

theorem after (h : w.Tended idle) (ms : List Move) :
    (w.after ms).Tended ((w.leavings ms).foldl leave idle) := by
  induction ms generalizing w idle with
  | nil => exact h
  | cons m ms ih =>
      rw [leavings, log, List.foldl_append]
      exact ih (h.make m)

/-- While no operation is in progress there is one lock for each active session and one for
each abandoned key. -/
theorem perm_keys (h : w.Tended idle) (hq : w.IsQuiet) :
    w.engine.locks.keys.Perm (w.engine.store.active ++ idle) := by
  have hapart : ∀ a ∈ w.engine.store.active, ∀ b ∈ idle, a ≠ b := by
    rintro key hactive _ hidle rfl
    rw [SessionStore.mem_active_iff] at hactive
    have hinactive := (h.warrants key (hq.isFree key)).apart hidle
    exact Bool.false_ne_true (hinactive.symm.trans hactive)
  have hnodup := List.nodup_append.2 ⟨w.engine.store.nodup_active, h.nodup, hapart⟩
  refine (List.perm_ext_iff_of_nodup w.engine.locks.nodup_keys hnodup).2 fun key => ?_
  rw [Locks.mem_keys_iff, (h.warrants key (hq.isFree key)).kept, List.mem_append,
    SessionStore.mem_active_iff]
  rfl

end Tended

theorem tended_fresh (settings : Settings) (sink : Option Sink) (executor : Option Executor)
    (now : Instant) : (fresh settings sink executor now).Tended [] where
  orderly := orderly_fresh settings sink executor now
  reachable := .fresh settings sink executor now
  plain := fun _ _ ht => absurd ht nofun
  nodup := List.nodup_nil
  warrants := fun _ _ => ⟨iff_of_false nofun (not_or.2 ⟨nofun, List.not_mem_nil⟩), nofun⟩

/-- **The locks that are left.**  While no operation is in progress there is one lock for
each active session and one for each key whose lock was abandoned by the operation that has
used it last, and no other; so the locks are all of active sessions just if none is
abandoned. -/
theorem locks_active_or_abandoned (settings : Settings) (sink : Option Sink)
    (executor : Option Executor) (now : Instant) (ms : List Move)
    (hq : ((fresh settings sink executor now).after ms).IsQuiet) :
    ((fresh settings sink executor now).after ms).engine.locks.keys.Perm
        (((fresh settings sink executor now).after ms).engine.store.active ++
          (fresh settings sink executor now).abandoned ms) ∧
      ((fresh settings sink executor now).after ms).engine.locks.size =
        ((fresh settings sink executor now).after ms).engine.store.active.length +
          ((fresh settings sink executor now).abandoned ms).length ∧
      ((∀ key ∈ ((fresh settings sink executor now).after ms).engine.locks.keys,
          ((fresh settings sink executor now).after ms).engine.hasActive key = true) ↔
        (fresh settings sink executor now).abandoned ms = []) := by
  have h := (tended_fresh settings sink executor now).after ms
  have hperm := h.perm_keys hq
  refine ⟨hperm, ?_, fun hall => ?_, fun hnone key hkey => ?_⟩
  · rw [abandoned, ← List.length_append, ← hperm.length_eq]
    exact (List.length_map ..).symm
  · refine List.eq_nil_iff_forall_not_mem.2 fun key hidle => ?_
    have hactive := hall key (hperm.mem_iff.2 (List.mem_append_right _ hidle))
    have hinactive := (h.warrants key (hq.isFree key)).apart hidle
    exact Bool.false_ne_true (hinactive.symm.trans hactive)
  · have hmem := hperm.mem_iff.1 hkey
    rw [show (leavings _ ms).foldl leave [] = [] from hnone, List.append_nil] at hmem
    exact (SessionStore.mem_active_iff _ key).1 hmem

/-- A caller starts a session twice and completes it; then its last input comes once more,
and an input to a session that never was. -/
def lateInputs : List Move :=
  .publish .greeting ::
    ([.create ⟨"greeting", "555", "*1#"⟩, .create ⟨"greeting", "555", "*1#"⟩,
      .input (sessionId 1) "Ada", .input (sessionId 1) "Ada", .input "none" "1"] :
      List Call).zipIdx.flatMap fun x => .begin x.1 :: List.replicate 8 (.proceed x.2)

/-- No session is active after that, but three locks are left. -/
theorem locks_abandoned_late :
    ((fresh .standard none none ⟨0, Instant.zero_inRange⟩).after lateInputs).IsQuiet ∧
      ((fresh .standard none none ⟨0, Instant.zero_inRange⟩).after
        lateInputs).engine.store.active = [] ∧
      ((fresh .standard none none ⟨0, Instant.zero_inRange⟩).after
        lateInputs).engine.locks.keys.Perm ["none", sessionId 1, "start:greeting:555:*1#"] ∧
      ((fresh .standard none none ⟨0, Instant.zero_inRange⟩).after
        lateInputs).engine.locks.size = 3 := by
  have hrun : (((fresh .standard none none ⟨0, Instant.zero_inRange⟩).after
        lateInputs).tasks.all (fun t => t.phase.isFinished) &&
      decide (((fresh .standard none none ⟨0, Instant.zero_inRange⟩).after
        lateInputs).engine.store.active = []) &&
      decide ((fresh .standard none none ⟨0, Instant.zero_inRange⟩).abandoned lateInputs =
        ["none", sessionId 1, "start:greeting:555:*1#"])) = true := by decide +kernel
  simp only [Bool.and_eq_true, List.all_eq_true, decide_eq_true_eq] at hrun
  obtain ⟨⟨hquiet, hactive⟩, habandoned⟩ := hrun
  obtain ⟨hperm, hsize, -⟩ := locks_active_or_abandoned .standard none none
    ⟨0, Instant.zero_inRange⟩ lateInputs hquiet
  rw [hactive, habandoned] at hperm hsize
  exact ⟨hquiet, hactive, hperm, hsize⟩

end Service

end UssdFlows
