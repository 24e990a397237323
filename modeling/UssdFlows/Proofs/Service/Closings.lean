import UssdFlows.Proofs.Engine.Sinks
import UssdFlows.Proofs.Service.Finality

/-!
# How the stories of sessions close

The *story* of a session is what a sink that keeps everything has kept about it
(`tellingsOf`).  It is *closed* by the end of the session (`Closing`): the event that
tells of the end is the last one, and there is one just when the session is not active
any more.  It also tells where the session rests (`Located`): where it was started or
went last, and there its inputs are received.  Every deed about a session takes its
story on in this way (`Engine.Does.closing`, `Engine.Does.located`).
-/

namespace UssdFlows

open EngineM

variable {e e' : Engine} {id : String} {s s' : Session} {made : Option Session}
  {es new : List Event} {event : Event}

/-! ## What a sink keeps -/

namespace Engine

/-- The events that the sink keeps. -/
def recorded (e : Engine) : List Event := (e.sink.bind Sink.kept?).getD []

/-- The sink keeps every event, and has kept just these. -/
def Records (e : Engine) (es : List Event) : Prop := e.sink = some (.memory none es)

theorem Records.recorded_eq (h : e.Records es) : e.recorded = es := by
  rw [recorded, h]
  rfl

theorem Records.tells (h : e.Records es) (htold : e.Tells new e') : e'.Records (es ++ new) := by
  rw [Records, htold, h, toldTo_memory]

/-- A sink that keeps every event shows what it was told. -/
theorem Records.unique {more : List Event} (h : e.Records es) (htold : e.Tells new e')
    (htold' : e.Tells more e') : more = new := by
  have hkept := (h.tells htold').recorded_eq.symm.trans (h.tells htold).recorded_eq
  exact List.append_cancel_left hkept

end Engine

/-- What an operation tells when it goes on. -/
def Task.tells (t : Task) (e : Engine) : List Event :=
  (t.step e).2.recorded.drop e.recorded.length

theorem Task.tells_eq {t t' : Task} (h : e.Records es) (hstep : t.step e = (t', e'))
    (htold : e.Tells new e') : t.tells e = new := by
  rw [Task.tells, hstep, h.recorded_eq, (h.tells htold).recorded_eq, List.drop_left]

namespace Service

/-- The operation that a move begins. -/
def Move.call? : Move → Option Call
  | .begin call => some call
  | _ => none

/-- What was told in a run, each event with the place of the operation that has told
it. -/
def told (w : Service) (ms : List Move) : List (Nat × Event) :=
  w.log (fun i t e => (t.tells e).map (Prod.mk i)) ms

/-- The operations that were begun in a run. -/
def calls (ms : List Move) : List Call := ms.filterMap Move.call?

end Service

/-! ## Events of one session -/

theorem select_append (xs ys : List Event) (id : String) :
    Sink.select none (some id) (xs ++ ys) =
      Sink.select none (some id) xs ++ Sink.select none (some id) ys := List.filter_append ..

theorem mem_select {xs : List Event} : event ∈ Sink.select none (some id) xs ↔
    event ∈ xs ∧ event.sessionId = id := by
  refine List.mem_filter.trans (and_congr_right fun _ => ?_)
  simp only [Option.all_none, Option.all_some, Bool.true_and, beq_iff_eq]
  exact eq_comm

theorem select_of_forall (h : ∀ event ∈ new, event.sessionId = id) :
    Sink.select none (some id) new = new :=
  List.filter_eq_self.2 fun event hmem => by simp [h event hmem]

theorem select_eq_nil (h : ∀ event ∈ new, event.sessionId ≠ id) :
    Sink.select none (some id) new = [] :=
  List.filter_eq_nil_iff.2 fun event hmem => by simp [(h event hmem).symm]

/-! ## How stories close -/

/-- Whether a kind of event tells of the end of a session. -/
def EventType.isFinal : EventType → Bool
  | sessionCompleted | sessionTerminated | sessionExpired => true
  | _ => false

/-- The kind of event that tells of the end that a session has come to. -/
def SessionStatus.ending? : SessionStatus → Option EventType
  | active => none
  | completed => some .sessionCompleted
  | terminated => some .sessionTerminated
  | expired => some .sessionExpired

/-- Something was told of a session that is stored; an event that tells of its end
comes last, and is there just when the session has come to that end. -/
structure Closing (es : List Event) (s? : Option Session) : Prop where
  closed : ∀ event ∈ es.dropLast, event.type.isFinal = false
  told : ∀ s, s? = some s → es ≠ []
  status : ∀ s, s? = some s → ∀ type : EventType, type.isFinal = true →
    ((∃ event ∈ es, event.type = type) ↔ s.status.ending? = some type)

namespace Closing

/-- The story of an active session has no end. -/
theorem unfinished (h : Closing es (some s)) (ha : s.isActive = true) :
    ∀ event ∈ es, event.type.isFinal = false := by
  intro event hmem
  by_contra hfinal
  have hstatus := (h.status s rfl event.type (by simpa using hfinal)).1 ⟨event, hmem, rfl⟩
  rw [show s.status = .active by simpa [Session.isActive] using ha] at hstatus
  cases hstatus

theorem of_open (hne : es ≠ []) (hno : ∀ event ∈ es, event.type.isFinal = false)
    (ha : s.isActive = true) : Closing es (some s) where
  closed := fun event hmem => hno event ((List.dropLast_subset es hmem))
  told := fun _ _ => hne
  status := by
    rintro _ ⟨⟩ type htype
    have hnone : s.status.ending? = none := by
      rw [show s.status = .active by simpa [Session.isActive] using ha]
      rfl
    refine iff_of_false ?_ fun hending => Option.some_ne_none type (hending.symm.trans hnone)
    rintro ⟨event, hmem, rfl⟩
    exact Bool.false_ne_true ((hno event hmem).symm.trans htype)

/-- An active session stays active, and something is told of it. -/
theorem goesOn (h : Closing es (some s)) (ha : s.isActive = true)
    (hno : ∀ event ∈ new, event.type.isFinal = false) (ha' : s'.isActive = true) :
    Closing (es ++ new) (some s') := by
  refine of_open (fun hnil => h.told s rfl (List.append_eq_nil_iff.1 hnil).1)
    (fun event hmem => ?_) ha'
  exact (List.mem_append.1 hmem).elim (h.unfinished ha event) (hno event)

theorem tells (h : Closing es (some s)) (ha : s.isActive = true)
    (hno : event.type.isFinal = false) (ha' : s'.isActive = true) :
    Closing (es ++ [event]) (some s') :=
  h.goesOn ha (fun x hmem => by rw [List.mem_singleton.1 hmem]; exact hno) ha'

/-- An active session comes to an end, and its end is told. -/
theorem ends (h : Closing es (some s)) (ha : s.isActive = true)
    (hend : s'.status.ending? = some event.type) : Closing (es ++ [event]) (some s') where
  closed := fun x hmem => by
    rw [List.dropLast_concat] at hmem
    exact h.unfinished ha x hmem
  told := fun _ _ hnil => List.cons_ne_nil _ _ (List.append_eq_nil_iff.1 hnil).2
  status := by
    rintro _ ⟨⟩ type htype
    rw [hend, Option.some.injEq]
    constructor
    · rintro ⟨x, hmem, rfl⟩
      rcases List.mem_append.1 hmem with hmem | hmem
      · exact absurd ((h.unfinished ha x hmem).symm.trans htype) Bool.false_ne_true
      · rw [List.mem_singleton.1 hmem]
    · rintro rfl
      exact ⟨event, by simp, rfl⟩

theorem of_kept {s? s?' : Option Session} (h : Closing es s?)
    (hkept : ∀ s, s?' = some s → s? = some s) : Closing es s?' :=
  ⟨h.closed, fun s hs => h.told s (hkept s hs), fun s hs => h.status s (hkept s hs)⟩

end Closing

namespace Engine

/-- A deed about a session takes its story on. -/
theorem Deed.closing (h : e.Deed made (some id) e') (hnew : ∀ s, made = some s → es = [])
    (hc : Closing es (e.store.get? id)) :
    ∃ new, e.Tells new e' ∧ Closing (es ++ new) (e'.store.get? id) := by
  have hkept : ∀ {s s' : Session} {new : List Event}, e.store.get? id = some s → s'.id = s.id →
      (Closing es (some s) → Closing (es ++ new) (some s')) →
      Closing (es ++ new) ((e.keep s').store.get? id) := by
    intro s s' new hget hid hgoes
    rw [get?_keep, if_pos (hid.trans (KeyedList.key_of_find? hget))]
    exact hgoes (hget ▸ hc)
  cases h with
  | rests => exact ⟨[], tells_nil rfl, by rwa [List.append_nil]⟩
  | numbers => exact ⟨[], tells_nil rfl, by rwa [List.append_nil]⟩
  | @opens s hmade hnone ha =>
      refine ⟨[_], rfl, ?_⟩
      rw [hnew s hmade, get?_opened, if_pos rfl, List.nil_append]
      refine .of_open (List.cons_ne_nil _ _) (fun event hmem => ?_) ha
      rw [List.mem_singleton.1 hmem]
      rfl
  | receives hget ha hr =>
      obtain ⟨expiry, -, rfl⟩ := Session.received?_eq_some hr
      exact ⟨[_], rfl, hkept hget rfl fun hc => hc.tells ha rfl ha⟩
  | overruns hget ha hr =>
      exact ⟨[], tells_nil rfl, hkept hget rfl fun hc =>
        hc.goesOn ha (fun _ hmem => absurd hmem List.not_mem_nil) ha⟩
  | @asks _ s n hget ha =>
      have htold : e.Tells [.ofSession .actionInitiated s (some n.id)
          [("action", .text n.kind.text)] e.now] (e.requested n s) := by
        unfold requested
        split <;> rfl
      refine ⟨_, htold, ?_⟩
      rw [store_requested]
      rw [hget] at hc ⊢
      exact hc.tells ha rfl ha
  | moves hget ha =>
      refine ⟨[_], rfl, ?_⟩
      rw [store_moved]
      exact hkept hget rfl fun hc => hc.tells ha rfl ha
  | finishes hget ha => exact ⟨[_], rfl, hkept hget rfl fun hc => hc.ends ha rfl⟩
  | complains hget ha =>
      refine ⟨[_], rfl, ?_⟩
      rw [store_announce]
      rw [hget] at hc ⊢
      exact hc.tells ha rfl ha
  | lapses hget ha hx => exact ⟨[_], rfl, hkept hget rfl fun hc => hc.ends ha rfl⟩
  | terminates hget ha => exact ⟨[_], rfl, hkept hget rfl fun hc => hc.ends ha rfl⟩

theorem Does.closing (h : e.Does made (some id) e') (hnew : ∀ s, made = some s → es = [])
    (hc : Closing es (e.store.get? id)) :
    ∃ new, e.Tells new e' ∧ Closing (es ++ new) (e'.store.get? id) := by
  obtain ⟨e₁, hdeed, hcalm⟩ := h
  obtain ⟨new, htold, hclosing⟩ := hdeed.closing hnew hc
  have htold' := htold.trans hcalm.silent.tells
  rw [List.append_nil] at htold'
  exact ⟨new, htold', hcalm.alike.store ▸ hclosing⟩

end Engine

/-! ## Where stories stop -/

/-- The node where a session comes to rest by an event. -/
def Event.stop? (event : Event) : Option String :=
  match event.type with
  | .sessionStarted | .nodeVisited => event.node
  | _ => none

/-- Where a session rests by what was told of it. -/
def lastStop (es : List Event) : Option String := (es.filterMap Event.stop?).getLast?

theorem lastStop_concat (es : List Event) (event : Event) :
    lastStop (es ++ [event]) = event.stop?.or (lastStop es) := by
  cases hstop : event.stop? <;> simp [lastStop, hstop]

/-- A session that is stored rests where it has stopped last, and every input was
received where it had stopped last before. -/
structure Located (es : List Event) (s? : Option Session) : Prop where
  rests : ∀ s, s? = some s → s.currentNode = lastStop es
  heard : ∀ (before : List Event) (event : Event), before ++ [event] <+: es →
    event.type = .inputReceived → event.node = lastStop before

namespace Located

/-- One more event is told. -/
theorem concat {s? : Option Session} (h : Located es s?)
    (hrests : s'.currentNode = event.stop?.or (lastStop es))
    (hheard : event.type = .inputReceived → event.node = lastStop es) :
    Located (es ++ [event]) (some s') where
  rests := by
    rintro _ ⟨⟩
    rw [lastStop_concat, hrests]
  heard := fun before x hprefix htype => by
    rcases List.prefix_concat_iff.1 hprefix with hall | hprefix
    · obtain ⟨rfl, hx⟩ := List.append_inj' hall rfl
      cases hx
      exact hheard htype
    · exact h.heard before x hprefix htype

/-- A session stays where it is. -/
theorem stays (h : Located es (some s)) (hnode : s'.currentNode = s.currentNode)
    (hstop : event.stop? = none)
    (hheard : event.type = .inputReceived → event.node = s.currentNode) :
    Located (es ++ [event]) (some s') := by
  refine h.concat ?_ fun htype => (hheard htype).trans (h.rests s rfl)
  rw [hnode, h.rests s rfl, hstop]
  rfl

theorem of_kept {s? s?' : Option Session} (h : Located es s?)
    (hkept : ∀ s', s?' = some s' → ∃ s, s? = some s ∧ s'.currentNode = s.currentNode) :
    Located es s?' where
  rests := fun s' hs' => by
    obtain ⟨s, hs, hnode⟩ := hkept s' hs'
    exact hnode.trans (h.rests s hs)
  heard := h.heard

end Located

theorem located_nil : Located [] none where
  rests := nofun
  heard := fun _ event hprefix =>
    absurd (List.append_eq_nil_iff.1 (List.prefix_nil.1 hprefix)).2 (List.cons_ne_nil event [])

namespace Engine

/-- A deed about a session tells where it rests. -/
theorem Deed.located (h : e.Deed made (some id) e') (hnew : ∀ s, made = some s → es = [])
    (hl : Located es (e.store.get? id)) :
    ∃ new, e.Tells new e' ∧ Located (es ++ new) (e'.store.get? id) := by
  have hkept : ∀ {s s' : Session} {new : List Event}, e.store.get? id = some s → s'.id = s.id →
      (Located es (some s) → Located (es ++ new) (some s')) →
      Located (es ++ new) ((e.keep s').store.get? id) := by
    intro s s' new hget hid hgoes
    rw [get?_keep, if_pos (hid.trans (KeyedList.key_of_find? hget))]
    exact hgoes (hget ▸ hl)
  cases h with
  | rests => exact ⟨[], tells_nil rfl, by rwa [List.append_nil]⟩
  | numbers => exact ⟨[], tells_nil rfl, by rwa [List.append_nil]⟩
  | @opens s hmade hnone ha =>
      refine ⟨[_], rfl, ?_⟩
      rw [get?_opened, if_pos rfl]
      refine hl.concat ?_ nofun
      rw [hnew s hmade]
      exact (Option.or_none ..).symm
  | receives hget ha hr =>
      obtain ⟨expiry, -, rfl⟩ := Session.received?_eq_some hr
      exact ⟨[_], rfl, hkept hget rfl fun hl => hl.stays rfl rfl fun _ => rfl⟩
  | overruns hget ha hr =>
      refine ⟨[], tells_nil rfl, hkept hget rfl fun hl => ?_⟩
      rw [List.append_nil]
      exact hl.of_kept fun s' hs' => ⟨_, rfl, by cases hs'; rfl⟩
  | @asks _ s n hget ha =>
      have htold : e.Tells [.ofSession .actionInitiated s (some n.id)
          [("action", .text n.kind.text)] e.now] (e.requested n s) := by
        unfold requested
        split <;> rfl
      refine ⟨_, htold, ?_⟩
      rw [store_requested]
      rw [hget] at hl ⊢
      exact hl.stays rfl rfl nofun
  | moves hget ha =>
      refine ⟨[_], rfl, ?_⟩
      rw [store_moved]
      exact hkept hget rfl fun hl => hl.concat rfl nofun
  | finishes hget ha => exact ⟨[_], rfl, hkept hget rfl fun hl => hl.stays rfl rfl nofun⟩
  | complains hget ha =>
      refine ⟨[_], rfl, ?_⟩
      rw [store_announce]
      rw [hget] at hl ⊢
      exact hl.stays rfl rfl nofun
  | lapses hget ha hx => exact ⟨[_], rfl, hkept hget rfl fun hl => hl.stays rfl rfl nofun⟩
  | terminates hget ha => exact ⟨[_], rfl, hkept hget rfl fun hl => hl.stays rfl rfl nofun⟩

theorem Does.located (h : e.Does made (some id) e') (hnew : ∀ s, made = some s → es = [])
    (hl : Located es (e.store.get? id)) :
    ∃ new, e.Tells new e' ∧ Located (es ++ new) (e'.store.get? id) := by
  obtain ⟨e₁, hdeed, hcalm⟩ := h
  obtain ⟨new, htold, hlocated⟩ := hdeed.located hnew hl
  have htold' := htold.trans hcalm.silent.tells
  rw [List.append_nil] at htold'
  exact ⟨new, htold', hcalm.alike.store ▸ hlocated⟩

/-- A session that something was told of just now is stored. -/
theorem Does.stored_of_told (h : e.Does made (some id) e') (hr : e.Records es)
    (htold : e.Tells new e') (hne : new ≠ []) : ∃ s, e'.store.get? id = some s := by
  obtain ⟨e₁, hdeed, hcalm⟩ := h
  rw [hcalm.alike.store]
  cases hget : e.store.get? id with
  | some s => exact hdeed.stored hget
  | none =>
      have hsilent : e₁.sink = e.sink → ∃ s, e₁.store.get? id = some s := fun hsink =>
        absurd (hr.unique (tells_nil (hcalm.silent.sink.trans hsink)) htold) hne
      cases hdeed with
      | rests => exact hsilent rfl
      | numbers => exact hsilent rfl
      | @opens s hmade hnew ha => exact ⟨s, by rw [get?_opened, if_pos rfl]⟩
      | receives hget' => cases hget.symm.trans hget'
      | overruns hget' => cases hget.symm.trans hget'
      | asks hget' => cases hget.symm.trans hget'
      | moves hget' => cases hget.symm.trans hget'
      | finishes hget' => cases hget.symm.trans hget'
      | complains hget' => cases hget.symm.trans hget'
      | lapses hget' => cases hget.symm.trans hget'
      | terminates hget' => cases hget.symm.trans hget'

/-- Nothing is told of a session that is not stored, but by whoever has made it. -/
theorem Does.made_of_told (h : e.Does made (some id) e') (hr : e.Records es)
    (htold : e.Tells new e') (hmem : event ∈ new) (hid : event.sessionId = id)
    (hnone : e.store.get? id = none) : made ≠ none := by
  rintro rfl
  obtain ⟨hmute, -⟩ := h.of_over fun s hget => by cases hnone.symm.trans hget
  obtain ⟨more, htold', hother⟩ := hmute.told
  rw [hr.unique htold' htold] at hmem
  exact hother event hmem hid

end Engine

end UssdFlows
