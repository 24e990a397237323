import UssdFlows.Proofs.Service.Closings
import UssdFlows.Proofs.Service.Tales

/-!
# The stories of sessions

The *story* of a session is what a sink that keeps everything has kept about it.  It
is made of the tales of operations, one after another (`Service.Ordered`): first comes
the operation that has started the session, and then those that were asked for it.
This is so because operations on a session take turns, and whoever has told something
and is not over is inside the section.

A story is *closed* by the end of its session (`Closing`): the event that tells of the
end is the last one, and there is one just when the session is not active any more.
And it tells where its session rests (`Located`), which is where inputs are received.

All this is kept by every run (`Service.story_told`).
-/

namespace UssdFlows

open EngineM

variable {L : Ledger} {e e' e₁ : Engine} {id : String} {s s' : Session} {made : Option Session}
  {es new : List Event} {event : Event}

/-! ## Who has told what -/

/-- What the operation at some place has told, of all that was told. -/
def tellings (told : List (Nat × Event)) (i : Nat) : List Event :=
  (told.filter fun x => x.1 == i).map Prod.snd

/-- What was told of a session. -/
def tellingsOf (told : List (Nat × Event)) (id : String) : List Event :=
  Sink.select none (some id) (told.map Prod.snd)

section Tellings

variable {told : List (Nat × Event)} {i j : Nat}

theorem tellings_append (told : List (Nat × Event)) (new : List Event) (i j : Nat) :
    tellings (told ++ new.map (Prod.mk i)) j = tellings told j ++ if i = j then new else [] := by
  rw [tellings, List.filter_append, List.map_append, List.filter_map]
  by_cases h : i = j
  · subst h
    simp [tellings, Function.comp_def]
  · simp [tellings, Function.comp_def, h]

theorem tellings_self (told : List (Nat × Event)) (new : List Event) (i : Nat) :
    tellings (told ++ new.map (Prod.mk i)) i = tellings told i ++ new := by
  rw [tellings_append, if_pos rfl]

theorem tellings_other (h : j ≠ i) (told : List (Nat × Event)) (new : List Event) :
    tellings (told ++ new.map (Prod.mk i)) j = tellings told j := by
  rw [tellings_append, if_neg (Ne.symm h), List.append_nil]

theorem tellingsOf_append (told : List (Nat × Event)) (new : List Event) (i : Nat) (id : String) :
    tellingsOf (told ++ new.map (Prod.mk i)) id =
      tellingsOf told id ++ Sink.select none (some id) new := by
  rw [tellingsOf, List.map_append, List.map_map, select_append]
  simp [tellingsOf, Function.comp_def]

end Tellings

/-! ## Tales one after another -/

/-- The story of a session is made of the tales of some operations, one after another.
The first of them was to start a session, and the others were asked for this one; all
but the last are over. -/
structure Ordered (calls : List Call) (told : List (Nat × Event)) (isOver : Nat → Prop)
    (id : String) (order : List Nat) : Prop where
  nodup : order.Nodup
  members : ∀ i, i ∈ order ↔ ∃ event ∈ tellings told i, event.sessionId = id
  story : tellingsOf told id = order.flatMap (tellings told)
  first : ∀ i, order.head? = some i → ∃ c, calls[i]? = some (.create c)
  later : ∀ i ∈ order.tail, ∃ call, calls[i]? = some call ∧ call.session? = some id
  done : ∀ i ∈ order.dropLast, isOver i

namespace Ordered

variable {calls : List Call} {told : List (Nat × Event)} {isOver : Nat → Prop} {order : List Nat}
  {i : Nat}

theorem nil_iff (h : Ordered calls told isOver id order) : order = [] ↔ tellingsOf told id = [] := by
  rw [h.story, List.flatMap_eq_nil_iff]
  constructor
  · rintro rfl i hmem
    exact absurd hmem List.not_mem_nil
  · intro hall
    rw [List.eq_nil_iff_forall_not_mem]
    intro i hmem
    obtain ⟨event, hevent, -⟩ := (h.members i).1 hmem
    rw [hall i hmem] at hevent
    exact List.not_mem_nil hevent

/-- Operations come to their end. -/
theorem mono (h : Ordered calls told isOver id order) {isOver' : Nat → Prop}
    (hover : ∀ i, isOver i → isOver' i) : Ordered calls told isOver' id order :=
  { h with done := fun i hi => hover i (h.done i hi) }

/-- More operations begin. -/
theorem begin (h : Ordered calls told isOver id order) (more : List Call) :
    Ordered (calls ++ more) told isOver id order where
  nodup := h.nodup
  members := h.members
  story := h.story
  first := fun i hi => by
    obtain ⟨c, hc⟩ := h.first i hi
    obtain ⟨hlt, -⟩ := List.getElem?_eq_some_iff.1 hc
    exact ⟨c, (List.getElem?_append_left hlt).trans hc⟩
  later := fun i hi => by
    obtain ⟨call, hc, hid⟩ := h.later i hi
    obtain ⟨hlt, -⟩ := List.getElem?_eq_some_iff.1 hc
    exact ⟨call, (List.getElem?_append_left hlt).trans hc, hid⟩
  done := h.done

/-- An operation tells of another session. -/
theorem elsewhere (h : Ordered calls told isOver id order) (hi : i ∉ order)
    (hnew : ∀ event ∈ new, event.sessionId ≠ id) :
    Ordered calls (told ++ new.map (Prod.mk i)) isOver id order where
  nodup := h.nodup
  members := fun j => by
    by_cases hji : j = i
    · subst hji
      refine iff_of_false hi ?_
      rintro ⟨event, hmem, hid⟩
      rw [tellings_self] at hmem
      rcases List.mem_append.1 hmem with hmem | hmem
      · exact hi ((h.members j).2 ⟨event, hmem, hid⟩)
      · exact hnew event hmem hid
    · rw [tellings_other hji]
      exact h.members j
  story := by
    rw [tellingsOf_append, select_eq_nil hnew, List.append_nil, h.story]
    refine List.flatMap_congr fun j hj => (tellings_other ?_ told new).symm
    rintro rfl
    exact hi hj
  first := h.first
  later := h.later
  done := h.done

/-- An operation that has told of the session before, and is not over, is the last one
to have done so. -/
theorem eq_concat (h : Ordered calls told isOver id order) (hi : i ∈ order)
    (hover : ¬ isOver i) : order = order.dropLast ++ [i] ∧ i ∉ order.dropLast := by
  have hno : i ∉ order.dropLast := fun hmem => hover (h.done i hmem)
  have hne : order ≠ [] := List.ne_nil_of_mem hi
  have hconcat := List.dropLast_append_getLast hne
  rw [← hconcat, List.mem_append, List.mem_singleton] at hi
  have hlast := hi.resolve_left hno
  exact ⟨by rw [hlast, hconcat], hno⟩

/-- An operation that has told of the session before tells more of it. -/
theorem goesOn (h : Ordered calls told isOver id order) (hi : i ∈ order) (hover : ¬ isOver i)
    (hnew : ∀ event ∈ new, event.sessionId = id) :
    Ordered calls (told ++ new.map (Prod.mk i)) isOver id order where
  nodup := h.nodup
  members := fun j => by
    by_cases hji : j = i
    · subst hji
      obtain ⟨event, hmem, hid⟩ := (h.members j).1 hi
      refine iff_of_true hi ⟨event, ?_, hid⟩
      rw [tellings_self]
      exact List.mem_append_left _ hmem
    · rw [tellings_other hji]
      exact h.members j
  story := by
    obtain ⟨hconcat, hno⟩ := h.eq_concat hi hover
    have hothers : order.dropLast.flatMap (tellings (told ++ new.map (Prod.mk i))) =
        order.dropLast.flatMap (tellings told) := by
      refine List.flatMap_congr fun j hj => tellings_other ?_ told new
      rintro rfl
      exact hno hj
    have hstory := h.story
    rw [hconcat, List.flatMap_append, List.flatMap_singleton] at hstory
    rw [tellingsOf_append, select_of_forall hnew, hconcat, List.flatMap_append,
      List.flatMap_singleton, hothers, tellings_self, hstory, List.append_assoc]
  first := h.first
  later := h.later
  done := h.done

/-- An operation tells of the session for the first time when all that have done so
before are over. -/
theorem joins (h : Ordered calls told isOver id order) (hi : tellings told i = [])
    (hne : new ≠ []) (hnew : ∀ event ∈ new, event.sessionId = id) (hover : ∀ j ∈ order, isOver j)
    (hfirst : order = [] → ∃ c, calls[i]? = some (.create c))
    (hlater : order ≠ [] → ∃ call, calls[i]? = some call ∧ call.session? = some id) :
    Ordered calls (told ++ new.map (Prod.mk i)) isOver id (order ++ [i]) := by
  have hno : i ∉ order := by
    intro hmem
    obtain ⟨event, hevent, -⟩ := (h.members i).1 hmem
    rw [hi] at hevent
    exact List.not_mem_nil hevent
  refine ⟨?_, fun j => ?_, ?_, fun j hj => ?_, fun j hj => ?_, fun j hj => ?_⟩
  · rw [List.nodup_append_comm]
    exact List.nodup_cons.2 ⟨hno, h.nodup⟩
  · by_cases hji : j = i
    · subst hji
      obtain ⟨event, hevent⟩ := List.exists_mem_of_ne_nil new hne
      refine iff_of_true (by simp) ⟨event, ?_, hnew event hevent⟩
      rw [tellings_self]
      exact List.mem_append_right _ hevent
    · rw [tellings_other hji, ← h.members j, List.mem_append, List.mem_singleton]
      exact or_iff_left hji
  · have hothers : order.flatMap (tellings (told ++ new.map (Prod.mk i))) =
        order.flatMap (tellings told) := by
      refine List.flatMap_congr fun j hj => tellings_other ?_ told new
      rintro rfl
      exact hno hj
    rw [tellingsOf_append, select_of_forall hnew, List.flatMap_append, List.flatMap_singleton,
      hothers, tellings_self, hi, List.nil_append, h.story]
  · cases horder : order with
    | nil =>
        rw [horder] at hj
        cases hj
        exact hfirst horder
    | cons k rest =>
        rw [horder] at hj
        cases hj
        exact h.first _ (by rw [horder]; rfl)
  · cases horder : order with
    | nil =>
        rw [horder] at hj
        cases hj
    | cons k rest =>
        rw [horder, List.cons_append, List.tail_cons, List.mem_append, List.mem_singleton] at hj
        rcases hj with hj | rfl
        · exact h.later j (by rwa [horder])
        · exact hlater (by simp [horder])
  · rw [List.dropLast_concat] at hj
    exact hover j hj

end Ordered

/-! ## Runs -/

namespace Service

variable {w : Service} {trail : String → List String} {calls : List Call}
  {told : List (Nat × Event)}

/-- The operation at some place is over. -/
def IsOver (w : Service) (i : Nat) : Prop :=
  ∃ t, w.tasks[i]? = some t ∧ t.phase.isFinished = true

/-- Every operation has a tale, and every session a story that is made of them. -/
structure Storied (L : Ledger) (w : Service) (trail : String → List String) (calls : List Call)
    (told : List (Nat × Event)) : Prop where
  trails : w.Trails L trail
  orderly : w.Orderly
  records : w.engine.Records (told.map Prod.snd)
  begun : calls.length = w.tasks.length
  tales : ∀ (i : Nat) (t : Task) (call : Call), w.tasks[i]? = some t → calls[i]? = some call →
    t.phase.Tale L w.engine.nextSession call (tellings told i)
  absent : ∀ i : Nat, w.tasks[i]? = none → tellings told i = []
  walked : ∀ id, tellingsOf told id ≠ [] → trail id ≠ []
  closings : ∀ id, Closing (tellingsOf told id) (w.engine.store.get? id)
  located : ∀ id, Located (tellingsOf told id) (w.engine.store.get? id)
  ordered : ∀ id, ∃ order, Ordered calls told w.IsOver id order

namespace Storied

theorem exists_tale (h : w.Storied L trail calls told) {i : Nat} {t : Task}
    (ht : w.tasks[i]? = some t) : ∃ call, calls[i]? = some call ∧
      t.phase.Tale L w.engine.nextSession call (tellings told i) := by
  obtain ⟨hi, -⟩ := List.getElem?_eq_some_iff.1 ht
  rw [← h.begun] at hi
  exact ⟨calls[i], List.getElem?_eq_getElem hi, h.tales i t _ ht (List.getElem?_eq_getElem hi)⟩

/-- Something was told of every session that is stored. -/
theorem ne_nil_of_stored (h : w.Storied L trail calls told)
    (hget : w.engine.store.get? id = some s) : tellingsOf told id ≠ [] := (h.closings id).told s hget

/-- A session that is about to be stored has no story yet. -/
theorem tellingsOf_made (h : w.Storied L trail calls told) {i : Nat} {t : Task}
    (ht : w.tasks[i]? = some t) (hmade : t.phase.made? = some s)
    (hid : t.phase.subject? = some id) : tellingsOf told id = [] := by
  obtain ⟨c, n, r, k, hphase⟩ := Phase.eq_of_made? hmade
  have hwalks := h.trails.walks i t ht
  rw [hphase] at hwalks hid
  cases hid
  by_contra hne
  exact h.walked s.id hne hwalks.1

/-- Whoever has told of the session of an operation that can go on is over, but for the
operation itself: only one can be inside the section. -/
theorem isOver_of_told (h : w.Storied L trail calls told) {i j : Nat} {t : Task}
    (ht : w.tasks[i]? = some t) (hcan : t.phase.canStep t.visitor w.engine = true)
    (hsubject : t.phase.subject? = some event.sessionId) (hji : j ≠ i)
    (hmem : event ∈ tellings told j) : w.IsOver j := by
  cases hu : w.tasks[j]? with
  | none =>
      rw [h.absent j hu] at hmem
      exact absurd hmem List.not_mem_nil
  | some u =>
      refine ⟨u, hu, ?_⟩
      by_contra hopen
      obtain ⟨call, -, htale⟩ := h.exists_tale hu
      exact h.orderly.inLine.ne_of_inside ht hcan hu hji (Phase.mem_uses_of_subject? hsubject)
        (htale.inside (by simpa using hopen) hmem).2

/-- Whoever is the first to tell of a session was to start one. -/
theorem exists_create (h : w.Storied L trail calls told) {i : Nat} {t : Task} {p : Phase}
    (ht : w.tasks[i]? = some t) (hg : t.phase.Goes t.visitor w.engine p e')
    (htold : w.engine.Tells new e') (hmem : event ∈ new)
    (hsubject : t.phase.subject? = some event.sessionId)
    (hnone : tellingsOf told event.sessionId = []) : ∃ c, calls[i]? = some (.create c) := by
  have hmissing : w.engine.store.get? event.sessionId = none := by
    cases hget : w.engine.store.get? event.sessionId with
    | none => rfl
    | some s => exact absurd hnone (h.ne_nil_of_stored hget)
  have hdoes := h.orderly.does ht hg
  rw [hsubject] at hdoes
  obtain ⟨s, hs⟩ := Option.ne_none_iff_exists'.1
    (hdoes.made_of_told h.records htold hmem rfl hmissing)
  obtain ⟨c, n, r, k, hphase⟩ := Phase.eq_of_made? hs
  obtain ⟨call, hcall, htale⟩ := h.exists_tale ht
  rw [hphase] at htale
  obtain ⟨⟨c', rfl⟩, -⟩ := htale
  exact ⟨c', hcall⟩

/-- Whoever is about a session that has a story already, and has told nothing, was asked
for it. -/
theorem exists_call (h : w.Storied L trail calls told) {i : Nat} {t : Task}
    (ht : w.tasks[i]? = some t) (hsubject : t.phase.subject? = some id)
    (hnone : tellings told i = []) (hstory : tellingsOf told id ≠ []) :
    ∃ call, calls[i]? = some call ∧ call.session? = some id := by
  obtain ⟨call, hcall, htale⟩ := h.exists_tale ht
  rw [hnone] at htale
  refine ⟨call, hcall, htale.session? hsubject ?_⟩
  by_contra hmade
  obtain ⟨s, hs⟩ := Option.ne_none_iff_exists'.1 hmade
  exact hstory (h.tellingsOf_made ht hs hsubject)

/-- The story of the session of an operation that has gone on is told on by it. -/
theorem ordered_own (h : w.Storied L trail calls told) {i : Nat} {t : Task} {p : Phase}
    (ht : w.tasks[i]? = some t) (hcan : t.phase.canStep t.visitor w.engine = true)
    (hg : t.phase.Goes t.visitor w.engine p e') (htold : w.engine.Tells new e')
    (hsubject : t.phase.subject? = some id) (hnew : ∀ event ∈ new, event.sessionId = id)
    (hne : new ≠ []) : ∃ order, Ordered calls (told ++ new.map (Prod.mk i)) w.IsOver id order := by
  have hopen := Phase.not_isFinished_of_canStep hcan
  obtain ⟨call, -, htale⟩ := h.exists_tale ht
  obtain ⟨order, horder⟩ := h.ordered id
  by_cases hi : i ∈ order
  · refine ⟨order, horder.goesOn hi ?_ hnew⟩
    rintro ⟨t', ht', hfinished⟩
    cases ht.symm.trans ht'
    exact Bool.false_ne_true (hopen.symm.trans hfinished)
  · have hnone : tellings told i = [] := by
      rw [List.eq_nil_iff_forall_not_mem]
      intro x hx
      have hx' := (htale.inside hopen hx).1
      exact hi ((horder.members i).2 ⟨x, hx, Option.some.inj (hx'.symm.trans hsubject)⟩)
    refine ⟨_, horder.joins hnone hne hnew (fun j hj => ?_) (fun hnil => ?_) fun hsome =>
      h.exists_call ht hsubject hnone (mt horder.nil_iff.2 hsome)⟩
    · obtain ⟨x, hx, rfl⟩ := (horder.members j).1 hj
      refine h.isOver_of_told ht hcan hsubject ?_ hx
      rintro rfl
      exact hi hj
    · obtain ⟨event, hmem⟩ := List.exists_mem_of_ne_nil new hne
      obtain rfl := hnew event hmem
      exact h.exists_create ht hg htold hmem hsubject (horder.nil_iff.1 hnil)

/-- The stories of all other sessions stay as they are. -/
theorem ordered_other (h : w.Storied L trail calls told) {i : Nat} {t : Task}
    (ht : w.tasks[i]? = some t) (hopen : t.phase.isFinished = false)
    (hnew : ∀ event ∈ new, t.phase.subject? = some event.sessionId)
    (hother : ∀ event ∈ new, event.sessionId ≠ id) :
    ∃ order, Ordered calls (told ++ new.map (Prod.mk i)) w.IsOver id order := by
  obtain ⟨call, -, htale⟩ := h.exists_tale ht
  obtain ⟨order, horder⟩ := h.ordered id
  refine ⟨order, ?_⟩
  by_cases hi : i ∈ order
  · -- whoever has told of this session tells of no other
    have hnil : new = [] := by
      rw [List.eq_nil_iff_forall_not_mem]
      intro event hmem
      obtain ⟨x, hx, hxid⟩ := (horder.members i).1 hi
      have hx' := (htale.inside hopen hx).1
      exact hother event hmem ((Option.some.inj ((hnew event hmem).symm.trans hx')).trans hxid)
    rwa [hnil, List.map_nil, List.append_nil]
  · exact horder.elsewhere hi hother

/-- The stories go on when an operation has gone on. -/
theorem ordered_set (h : w.Storied L trail calls told) {i : Nat} {t : Task} {p : Phase}
    (ht : w.tasks[i]? = some t) (hcan : t.phase.canStep t.visitor w.engine = true)
    (hg : t.phase.Goes t.visitor w.engine p e') (htold : w.engine.Tells new e')
    (hnew : ∀ event ∈ new, t.phase.subject? = some event.sessionId) (id : String) :
    ∃ order, Ordered calls (told ++ new.map (Prod.mk i)) w.IsOver id order := by
  by_cases hid : ∃ event ∈ new, event.sessionId = id
  · obtain ⟨event, hmem, rfl⟩ := hid
    have hsubject := hnew event hmem
    exact h.ordered_own ht hcan hg htold hsubject
      (fun x hx => Option.some.inj ((hnew x hx).symm.trans hsubject)) (List.ne_nil_of_mem hmem)
  · exact h.ordered_other ht (Phase.not_isFinished_of_canStep hcan) hnew fun event hmem hevent =>
      hid ⟨event, hmem, hevent⟩

/-- Whatever deeds take on with the story of the session that they are about stays so
when an operation has gone on. -/
theorem taken_set (h : w.Storied L trail calls told) {P : List Event → Option Session → Prop}
    (hP : ∀ {made : Option Session} {id : String} {es : List Event},
      w.engine.Does made (some id) e' → (∀ s, made = some s → es = []) →
      P es (w.engine.store.get? id) →
      ∃ new, w.engine.Tells new e' ∧ P (es ++ new) (e'.store.get? id))
    (htaken : ∀ id, P (tellingsOf told id) (w.engine.store.get? id)) {i : Nat} {t : Task}
    {p : Phase} (ht : w.tasks[i]? = some t) (hg : t.phase.Goes t.visitor w.engine p e')
    (htold : w.engine.Tells new e')
    (hnew : ∀ event ∈ new, t.phase.subject? = some event.sessionId) (id : String) :
    P (tellingsOf (told ++ new.map (Prod.mk i)) id) (e'.store.get? id) := by
  have hdoes := h.orderly.does ht hg
  rw [tellingsOf_append]
  by_cases hid : t.phase.subject? = some id
  · rw [hid] at hdoes
    obtain ⟨more, htold', htaken'⟩ :=
      hP hdoes (fun s hmade => h.tellingsOf_made ht hmade hid) (htaken id)
    cases h.records.unique htold htold'
    rw [select_of_forall fun event hmem => Option.some.inj ((hnew event hmem).symm.trans hid)]
    exact htaken'
  · have hother : ∀ event ∈ new, event.sessionId ≠ id := by
      rintro event hmem rfl
      exact hid (hnew event hmem)
    rw [hdoes.others hid, select_eq_nil hother, List.append_nil]
    exact htaken id

/-- Whatever is told first of a session is about one that is stored then, so it has been
somewhere. -/
theorem walked_set (h : w.Storied L trail calls told) {L' : Ledger}
    {trail' : String → List String} {w' : Service} {i : Nat} {t : Task} {p : Phase}
    (ht : w.tasks[i]? = some t) (hg : t.phase.Goes t.visitor w.engine p w'.engine)
    (htrails : w'.Trails L' trail') (htrail : ∀ id, trail id ≠ [] → trail' id ≠ [])
    (htold : w.engine.Tells new w'.engine)
    (hnew : ∀ event ∈ new, t.phase.subject? = some event.sessionId)
    (hne : tellingsOf (told ++ new.map (Prod.mk i)) id ≠ []) : trail' id ≠ [] := by
  rw [tellingsOf_append] at hne
  by_cases hold : tellingsOf told id = []
  · rw [hold, List.nil_append] at hne
    obtain ⟨event, hmem⟩ := List.exists_mem_of_ne_nil _ hne
    obtain ⟨hmem', rfl⟩ := mem_select.1 hmem
    have hdoes := h.orderly.does ht hg
    rw [hnew event hmem'] at hdoes
    obtain ⟨s, hget⟩ := hdoes.stored_of_told h.records htold (List.ne_nil_of_mem hmem')
    obtain ⟨n, hnode, -⟩ := (htrails.sound.engine.placed _ s hget).resting
    have hrests := htrails.rests _ s hget
    rw [hnode] at hrests
    intro hnil
    rw [hnil] at hrests
    cases hrests
  · exact htrail id (h.walked id hold)

/-- Operations that are over stay so when another one has gone on. -/
theorem isOver_set {i j : Nat} {t : Task} {p : Phase} (ht : w.tasks[i]? = some t)
    (hopen : t.phase.isFinished = false) (hover : w.IsOver j) :
    (⟨e', w.tasks.set i { t with phase := p }, w.published⟩ : Service).IsOver j := by
  obtain ⟨u, hu, hfinished⟩ := hover
  refine ⟨u, ?_, hfinished⟩
  have hji : i ≠ j := by
    rintro rfl
    cases ht.symm.trans hu
    exact Bool.false_ne_true (hopen.symm.trans hfinished)
  exact (List.getElem?_set_ne hji).trans hu

theorem set (h : w.Storied L trail calls told) {L' : Ledger} {trail' : String → List String}
    {i : Nat} {t : Task} {p : Phase} (ht : w.tasks[i]? = some t)
    (hcan : t.phase.canStep t.visitor w.engine = true)
    (hstart : (t.phase.step t.visitor).start w.engine = (.ok p, e'))
    (hg : t.phase.Goes t.visitor w.engine p e') (hL : L.Agrees w.engine.nextSession L')
    (hnext : w.engine.nextSession ≤ e'.nextSession)
    (htrails : (⟨e', w.tasks.set i { t with phase := p }, w.published⟩ : Service).Trails L' trail')
    (horderly : (⟨e', w.tasks.set i { t with phase := p }, w.published⟩ : Service).Orderly)
    (htrail : ∀ id, trail id ≠ [] → trail' id ≠ []) :
    (⟨e', w.tasks.set i { t with phase := p }, w.published⟩ : Service).Storied L' trail' calls
      (told ++ (t.tells w.engine).map (Prod.mk i)) := by
  obtain ⟨call, hcall, htale⟩ := h.exists_tale ht
  have hmoving : w.engine.Sound L (t.phase.Moving (w.MovingBut i)) :=
    h.trails.sound.engine.mono fun id => (moving_iff ht id).1
  obtain ⟨new, htold, hnew, htale'⟩ := hg.tale hstart htale (h.orderly.attends i t ht) hmoving
    (h.trails.sound.tasks t (List.mem_of_getElem? ht)) (h.trails.walks i t ht) h.trails.rests
  have hstep : t.step w.engine = ({ t with phase := p }, e') := by
    unfold Task.step
    rw [if_pos hcan, hstart]
  rw [Task.tells_eq h.records hstep htold]
  obtain ⟨hi, -⟩ := List.getElem?_eq_some_iff.1 ht
  refine ⟨htrails, horderly, ?_, ?_, fun j u call' hu hcall' => ?_, fun j hj => ?_,
    fun id hne => h.walked_set ht hg htrails htrail htold hnew hne,
    h.taken_set Engine.Does.closing h.closings ht hg htold hnew,
    h.taken_set Engine.Does.located h.located ht hg htold hnew, fun id => ?_⟩
  · have hrecords := h.records.tells htold
    rw [List.map_append, List.map_map]
    simpa [Function.comp_def] using hrecords
  · exact h.begun.trans (List.length_set ..).symm
  · rcases set_cases hu with ⟨rfl, rfl⟩ | ⟨hji, hu⟩
    · cases hcall.symm.trans hcall'
      rw [tellings_self]
      exact htale'.mono hL hnext
    · rw [tellings_other hji]
      exact (h.tales j u call' hu hcall').mono hL hnext
  · have hlength : (w.tasks.set i { t with phase := p }).length ≤ j := List.getElem?_eq_none_iff.1 hj
    rw [List.length_set] at hlength
    have hji : j ≠ i := by omega
    rw [tellings_other hji]
    exact h.absent j (List.getElem?_eq_none hlength)
  · obtain ⟨order, horder⟩ := h.ordered_set ht hcan hg htold hnew id
    exact ⟨order, horder.mono fun j => isOver_set ht (Phase.not_isFinished_of_canStep hcan)⟩

/-- The engine changes without an operation going on: nothing is told, and no session
changes. -/
theorem of_engine (h : w.Storied L trail calls told) {L' : Ledger} {trail' : String → List String}
    {published : List Flow} (hL : L.Agrees w.engine.nextSession L')
    (hnext : w.engine.nextSession ≤ e'.nextSession)
    (htrails : (⟨e', w.tasks, published⟩ : Service).Trails L' trail')
    (horderly : (⟨e', w.tasks, published⟩ : Service).Orderly)
    (htrail : ∀ id, trail id ≠ [] → trail' id ≠ []) (hsink : e'.sink = w.engine.sink)
    (hstore : ∀ id s, e'.store.get? id = some s → w.engine.store.get? id = some s) :
    (⟨e', w.tasks, published⟩ : Service).Storied L' trail' calls told where
  trails := htrails
  orderly := horderly
  records := hsink.trans h.records
  begun := h.begun
  tales := fun i t call ht hcall => (h.tales i t call ht hcall).mono hL hnext
  absent := h.absent
  walked := fun id hne => htrail id (h.walked id hne)
  closings := fun id => (h.closings id).of_kept (hstore id)
  located := fun id => (h.located id).of_kept fun s hget => ⟨s, hstore id s hget, rfl⟩
  ordered := h.ordered

theorem begin (h : w.Storied L trail calls told) (call : Call) :
    (w.begin call).Storied L trail (calls ++ [call]) told where
  trails := h.trails.begin call
  orderly := h.orderly.begin call
  records := h.records
  begun := by
    show (calls ++ [call]).length = (w.tasks ++ [_]).length
    rw [List.length_append, List.length_append, h.begun]
    rfl
  tales := fun i t call' ht hcall' => by
    rcases begin_cases ht with ht | ⟨rfl, rfl⟩
    · obtain ⟨hi, -⟩ := List.getElem?_eq_some_iff.1 ht
      rw [List.getElem?_append_left (h.begun ▸ hi)] at hcall'
      exact h.tales i t call' ht hcall'
    · rw [← h.begun, List.getElem?_concat_length] at hcall'
      cases hcall'
      exact ⟨rfl, h.absent _ (List.getElem?_eq_none (Nat.le_refl _))⟩
  absent := fun i hi => by
    have hlength : (w.tasks ++ [(⟨w.tasks.length + 1, .ready call⟩ : Task)]).length ≤ i :=
      List.getElem?_eq_none_iff.1 hi
    rw [List.length_append] at hlength
    exact h.absent i (List.getElem?_eq_none (by omega))
  walked := h.walked
  closings := h.closings
  located := h.located
  ordered := fun id => by
    obtain ⟨order, horder⟩ := h.ordered id
    refine ⟨order, (horder.begin [call]).mono ?_⟩
    rintro i ⟨t, ht, hfinished⟩
    obtain ⟨hi, -⟩ := List.getElem?_eq_some_iff.1 ht
    exact ⟨t, (List.getElem?_append_left hi).trans ht, hfinished⟩

/-- **Stories.**  Every move takes the stories of the sessions on. -/
theorem make (h : w.Storied L trail calls told) (m : Move) :
    ∃ L' trail', L.Agrees w.engine.nextSession L' ∧
      w.engine.nextSession ≤ (w.make m).engine.nextSession ∧
      (w.make m).Storied L' trail' (calls ++ m.call?.toList)
        (told ++ noted (fun i t e => (t.tells e).map (Prod.mk i)) w m) := by
  obtain ⟨L', hL, hnext, htrails⟩ := h.trails.make m
  have horderly := h.orderly.make m
  refine ⟨L', fun id => trail id ++ noted (fun _ t e => t.phase.visited id e) w m, hL, hnext, ?_⟩
  have htrail : ∀ id, trail id ≠ [] →
      trail id ++ noted (fun _ t e => t.phase.visited id e) w m ≠ [] := fun id hne hnil =>
    hne (List.append_eq_nil_iff.1 hnil).1
  cases m with
  | turnClock now =>
      simp only [Move.call?, noted, Option.toList_none, List.append_nil] at htrails ⊢
      exact h.of_engine hL hnext htrails horderly (fun _ hne => hne) rfl fun _ _ hget => hget
  | publish f =>
      simp only [Move.call?, noted, Option.toList_none, List.append_nil] at htrails ⊢
      obtain ⟨e₁, hcalm, hstart⟩ := publish_cases f w.engine
      have hsame : (w.make (.publish f)).engine.sink = e₁.sink ∧
          (w.make (.publish f)).engine.store = e₁.store := by
        show ((Operation.publish f).perform.start w.engine).2.sink = _ ∧
          ((Operation.publish f).perform.start w.engine).2.store = _
        rcases hstart with hstart | hstart <;> rw [hstart] <;> exact ⟨rfl, rfl⟩
      refine h.of_engine hL hnext htrails horderly (fun _ hne => hne)
        (hsame.1.trans hcalm.silent.sink) fun id s hget => ?_
      have hstore := hsame.2.trans hcalm.alike.store
      exact hstore ▸ hget
  | drop retention now =>
      simp only [Move.call?, noted, Option.toList_none, List.append_nil] at htrails ⊢
      refine h.of_engine hL hnext htrails horderly (fun _ hne => hne) rfl fun id s hget => ?_
      have hkept := (w.engine.store.get?_dropStale retention now id).symm.trans hget
      exact (Option.filter_eq_some_iff.1 hkept).1
  | begin call =>
      simp only [Move.call?, noted, Option.toList_some, List.append_nil] at htrails ⊢
      exact { h.begin call with
        trails := htrails
        tales := fun i t call' ht hcall' =>
          ((h.begin call).tales i t call' ht hcall').mono hL hnext }
  | proceed i =>
      have hcalls : calls ++ (Move.call? (.proceed i)).toList = calls := List.append_nil calls
      rw [hcalls]
      rcases proceed_cases w i with ⟨hsame, hnote⟩ | ⟨t, p, e', ht, hcan, hstart, hg, hgoes, hnote⟩
      · have hmade : w.make (.proceed i) = w := hsame
        rw [hmade] at htrails horderly hnext ⊢
        rw [hnote, List.append_nil]
        exact h.of_engine hL hnext htrails horderly htrail rfl fun _ _ hget => hget
      · have hmade : w.make (.proceed i) =
            { w with engine := e', tasks := w.tasks.set i { t with phase := p } } := hgoes
        rw [hmade] at htrails horderly hnext ⊢
        rw [hnote]
        exact h.set ht hcan hstart hg hL hnext htrails horderly htrail

/-- Runs take the stories of the sessions on. -/
theorem after (h : w.Storied L trail calls told) (ms : List Move) :
    ∃ L' trail', L.Agrees w.engine.nextSession L' ∧
      w.engine.nextSession ≤ (w.after ms).engine.nextSession ∧
      (w.after ms).Storied L' trail' (calls ++ Service.calls ms) (told ++ w.told ms) := by
  induction ms generalizing w L trail calls told with
  | nil =>
      refine ⟨L, trail, .refl _ L, Nat.le_refl _, ?_⟩
      simp only [Service.calls, Service.told, log, List.filterMap_nil, List.append_nil]
      exact h
  | cons m ms ih =>
      obtain ⟨L₁, trail₁, hL₁, hnext₁, h₁⟩ := h.make m
      obtain ⟨L', trail', hL', hnext', h'⟩ := ih h₁
      refine ⟨L', trail', hL₁.trans hL' hnext₁, Nat.le_trans hnext₁ hnext', ?_⟩
      have hcalls : Service.calls (m :: ms) = m.call?.toList ++ Service.calls ms := by
        cases hm : m.call? <;> simp [Service.calls, hm]
      rw [hcalls, Service.told, log, ← List.append_assoc, ← List.append_assoc]
      exact h'

end Storied

theorem storied_fresh (settings : Settings) (executor : Option Executor) (now : Instant) :
    (fresh settings (some (.memory none [])) executor now).Storied ⟨fun _ => .blank, fun _ => ∅⟩
      (fun _ => []) [] [] where
  trails := trails_fresh settings _ executor now fun _ => .blank
  orderly := orderly_fresh settings _ executor now
  records := rfl
  begun := rfl
  tales := fun _ _ _ ht => by cases ht
  absent := fun _ _ => rfl
  walked := fun _ hne => absurd rfl hne
  closings := fun _ => ⟨fun _ hmem => absurd hmem List.not_mem_nil, nofun, nofun⟩
  located := fun _ => located_nil
  ordered := fun _ => ⟨[], List.nodup_nil,
    fun _ => iff_of_false List.not_mem_nil fun ⟨_, hmem, _⟩ => List.not_mem_nil hmem, rfl, nofun,
    fun _ hmem => absurd hmem List.not_mem_nil, fun _ hmem => absurd hmem List.not_mem_nil⟩

/-- The story of a session of a flow in a run: it is made of the tales of operations one
after another, each of them has the form that goes with what the operation was asked and
gives back, inputs are received where the session rests, and the end of the session
closes the story. -/
structure Story (w : Service) (ms : List Move) (id : String) (f : Flow) (order : List Nat) :
    Prop where
  ordered : Ordered (Service.calls ms) (w.told ms) (w.after ms).IsOver id order
  tales : ∀ (i : Nat) (call : Call) (t : Task), (Service.calls ms)[i]? = some call →
    (w.after ms).tasks[i]? = some t → i ∈ order ∨ call.session? = some id →
    t.phase.HasTold f call (tellings (w.told ms) i)
  closing : Closing (tellingsOf (w.told ms) id) ((w.after ms).engine.store.get? id)
  located : Located (tellingsOf (w.told ms) id) ((w.after ms).engine.store.get? id)

/-- **Stories.**  In every run that is recorded, what is told of a session that is stored
at some time is a story throughout, by the version of a flow that the session is pinned
to. -/
theorem story_told (settings : Settings) (executor : Option Executor) (now : Instant)
    (before later : List Move) {id : String} {s : Session}
    (hget : ((fresh settings (some (.memory none [])) executor now).after
      before).engine.store.get? id = some s) :
    ((fresh settings (some (.memory none [])) executor now).after
        (before ++ later)).engine.recorded =
      ((fresh settings (some (.memory none [])) executor now).told (before ++ later)).map
        Prod.snd ∧
    ∃ f order, ((fresh settings (some (.memory none [])) executor now).after
        before).engine.registry.version? s.flowId s.flowVersion = some f ∧
      (fresh settings (some (.memory none [])) executor now).Story (before ++ later) id f
        order := by
  obtain ⟨L, trail, -, -, h⟩ := (storied_fresh settings executor now).after before
  obtain ⟨L', trail', hL, -, h'⟩ := h.after later
  have hstored := h.trails.sound.engine.stored hget
  have hpin : L'.pin id = L.pin id := (hL id hstored.2.1).1
  have hcalls : Service.calls before ++ Service.calls later = Service.calls (before ++ later) :=
    (List.filterMap_append ..).symm
  have htold : (fresh settings (some (.memory none [])) executor now).told before ++
      ((fresh settings (some (.memory none [])) executor now).after before).told later =
        (fresh settings (some (.memory none [])) executor now).told (before ++ later) :=
    (log_append _ _ before later).symm
  simp only [List.nil_append, ← after_append, hcalls, htold] at h'
  obtain ⟨order, horder⟩ := h'.ordered id
  refine ⟨h'.records.recorded_eq, L.pin id, order, hstored.2.2.2, horder,
    fun i call t hcall ht hi => ?_, h'.closings id, h'.located id⟩
  have htale := h'.tales i t call ht hcall
  rw [← hpin]
  refine htale.hasTold (h'.trails.sound.tasks t (List.mem_of_getElem? ht)) ?_
  rcases hi with hi | hi
  · intro event hmem
    have hstory := List.mem_flatMap.2 ⟨i, hi, hmem⟩
    rw [← horder.story] at hstory
    exact (mem_select.1 hstory).2
  · exact htale.own hi

/-- A session is started, and an input is sent to it which is its last. -/
def conversation : List Move :=
  [.publish .greeting, .begin (.create ⟨"greeting", "555", "*1#"⟩), .proceed 0, .proceed 0,
    .proceed 0, .proceed 0, .proceed 0, .proceed 0, .begin (.input (sessionId 1) "Ada"),
    .proceed 1, .proceed 1, .proceed 1, .proceed 1, .proceed 1]

/-- The session passes the conditional where its flow starts, and is completed by the
input. -/
theorem story_told_conversation :
    ∃ s f order, ((fresh .standard (some (.memory none [])) none ⟨0, by decide⟩).after
        conversation).engine.store.get? (sessionId 1) = some s ∧
      (fresh .standard (some (.memory none [])) none ⟨0, by decide⟩).Story conversation
        (sessionId 1) f order ∧
      (tellingsOf ((fresh .standard (some (.memory none [])) none ⟨0, by decide⟩).told conversation)
        (sessionId 1)).map Event.type =
          [.sessionStarted, .nodeVisited, .inputReceived, .sessionCompleted] := by
  have hstored : (((fresh .standard (some (.memory none [])) none ⟨0, by decide⟩).after
      conversation).engine.store.get? (sessionId 1)).isSome = true := by decide +kernel
  have htypes : (tellingsOf ((fresh .standard (some (.memory none [])) none ⟨0, by decide⟩).told
      conversation) (sessionId 1)).map Event.type =
        [.sessionStarted, .nodeVisited, .inputReceived, .sessionCompleted] := by decide +kernel
  obtain ⟨s, hget⟩ := Option.isSome_iff_exists.1 hstored
  obtain ⟨-, f, order, -, hstory⟩ := story_told .standard none ⟨0, by decide⟩ conversation [] hget
  rw [List.append_nil] at hstory
  exact ⟨s, f, order, hget, hstory, htypes⟩

end Service

end UssdFlows
