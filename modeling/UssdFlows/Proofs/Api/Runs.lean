import UssdFlows.Proofs.Api.Served
import UssdFlows.Proofs.Service.Certified

/-!
# Runs of the service with requests

A service may be used through its interface as well: between two of its steps a server
answers a request (`Service.Attainable`).  Whatever a request makes the engine do, the
engine stays upright (`EngineM.Upright`): it is sound again, perhaps with the flow of one
more session put down, and nothing that was stored is lost.  So is the service in every
state that is attained in this way (`Service.Attainable.sound`).
-/

namespace UssdFlows

open EngineM

variable {α β : Type} {L : Ledger} {others : String → Prop} {e e' : Engine}

/-- The states that a service can be in when it is used through the interface, too. -/
inductive Service.Attainable [Libraries] : Service → Prop where
  | fresh (settings : Settings) (sink : Option Sink) (executor : Option Executor) (now : Instant) :
      Attainable (.fresh settings sink executor now)
  | step {w w' : Service} : Attainable w → Step w w' → Attainable w'
  | answer {w : Service} (around : Surroundings) (origins : List String) (q : Request) :
      Attainable w →
        Attainable { w with engine := ((⟨w.engine, around, origins⟩ : Server).handle q).2.engine }

/-- One state of the engine is as sound as the other, perhaps with more put down in the
ledger. -/
def Engine.StaysSound (L : Ledger) (others : String → Prop) (e e' : Engine) : Prop :=
  ∃ L', L.Agrees e.nextSession L' ∧ e.Grows e' ∧ e'.Sound L' others

theorem Engine.Alike.staysSound (h : e.Alike e') (hs : e.Sound L others) :
    e.StaysSound L others e' := ⟨L, .refl _ L, h.service.grows, h.sound hs⟩

/-- Nothing is to be shown of changes that concern neither the flows nor the sessions. -/
theorem Engine.StaysSound.alike {e'' : Engine} (h : e.StaysSound L others e')
    (halike : e'.Alike e'') : e.StaysSound L others e'' := by
  obtain ⟨L', hL, hg, hs⟩ := h
  exact ⟨L', hL, hg.trans halike.service.grows, halike.sound hs⟩

/-- The other way round: such changes may have been made before. -/
theorem Engine.StaysSound.of_alike {e'' : Engine} (halike : e.Alike e')
    (h : e'.StaysSound L others e'') : e.StaysSound L others e'' := by
  obtain ⟨L', hL, hg, hs⟩ := h
  exact ⟨L', halike.service.nextSession ▸ hL, halike.service.grows.trans hg, hs⟩

namespace EngineM

/-- A program leaves a sound engine sound. -/
def Upright (L : Ledger) (others : String → Prop) (x : EngineM α) (e : Engine) : Prop :=
  e.StaysSound L others (x.start e).2

/-- A program that changes nothing. -/
def Reads (x : EngineM α) : Prop := ∀ e : Engine, (x.start e).2 = e

theorem Safe.upright {x : EngineM α} (h : Safe L others True x e) :
    Upright L others x e := ⟨L, .refl _ L, h.grows, h.sound⟩

theorem reads_pure (a : α) : Reads (pure a : EngineM α) := fun _ => rfl

theorem reads_ofOption (err : EngineError) (o : Option α) : Reads (ofOption err o) := by
  cases o with
  | none => exact fun _ => rfl
  | some a => exact reads_pure a

theorem Reads.bind {x : EngineM α} {f : α → EngineM β} (hx : Reads x) (hf : ∀ a, Reads (f a)) :
    Reads (x >>= f) := fun e =>
  state_bind (P := fun e' => e' = e) (hx e) fun a e' _ h => (hf a e').trans h

theorem reads_get_bind {f : Engine → EngineM α} (hf : ∀ e, Reads (f e)) : Reads (get >>= f) :=
  Reads.bind (fun _ => rfl) hf

theorem reads_session (id : String) : Reads (session id) :=
  reads_get_bind fun _ => reads_ofOption _ _

theorem Reads.upright {x : EngineM α} (h : Reads x) (hs : e.Sound L others) :
    Upright L others x e := by
  rw [Upright, h e]
  exact (Engine.Alike.refl e).staysSound hs

/-- Reading the engine afterwards does no harm. -/
theorem Upright.bind_reads {x : EngineM α} {f : α → EngineM β} (hx : Upright L others x e)
    (hf : ∀ a, Reads (f a)) : Upright L others (x >>= f) e :=
  state_bind hx fun a e' _ h => (hf a e').symm ▸ h

end EngineM

/-! ## What requests make the engine do -/

theorem reads_screenOf (s : Session) : Reads (screenOf s) :=
  Reads.bind (reads_get_bind fun _ => reads_ofOption _ _) fun _ => reads_pure _

theorem upright_createSession (h : e.Sound L others) (c : Caller) :
    Upright L others (createSession c) e := by
  obtain ⟨-, hstart⟩ | ⟨f, -, hsafe⟩ : _ ∨ ∃ f, _ ∧
      Safe (L.pinned (sessionId e.nextSession) f) others True (createSession c) e :=
    safe_createSession h c
  · rw [Upright, hstart]
    exact (Engine.Alike.refl e).staysSound h
  · exact ⟨_, L.agrees_pinned _ f, hsafe.grows, hsafe.sound⟩

/-- Loading a flow uses up a spare id at most. -/
theorem upright_withFlow [Libraries] {use : Flow → EngineM Response} (h : e.Sound L others)
    (huse : ∀ f e', e'.Sound L others → Upright L others (use f) e') (document : Value) :
    Upright L others (Endpoint.withFlow document use) e := by
  have hload : e.Alike ((loadFlow document).start e).2 := by
    show e.Alike (if Flow.takesSpareId document then { e with nextFlow := e.nextFlow + 1 } else e)
    split
    · exact ⟨⟨rfl, rfl, rfl, rfl, rfl, rfl, rfl⟩, rfl, rfl⟩
    · exact .refl e
  refine state_bind (hload.staysSound h) fun r e₁ hstart _ => ?_
  rw [hstart] at hload
  cases r with
  | ok f => exact .of_alike hload (huse f e₁ (hload.sound h))
  | error _ => exact hload.staysSound h

theorem upright_examine (h : e.Sound L others) (f : Flow) : Upright L others (examine f) e := by
  obtain ⟨report, e', hstart, halike, -⟩ := start_examine f e
  rw [Upright, hstart]
  exact halike.staysSound h

namespace Endpoint

variable {x : Endpoint} {a : Surroundings} {q : Request} {work : EngineM Response}

/-- A program that depends on what is read of a request. -/
theorem exists_of_read {r : Except Response α} {f : α → EngineM Response}
    (h : (do let a ← r; return f a : Except Response (EngineM Response)) = .ok work) :
    ∃ a, work = f a := by
  cases r with
  | error response => cases h
  | ok a => exact ⟨a, (Except.ok.inj h).symm⟩

/-- Whatever an endpoint makes of a request leaves the engine sound. -/
theorem upright_read [Libraries] (h : e.Sound L others) (hread : x.read a q = .ok work) :
    Upright L others work e := by
  cases x with
  | startSession =>
      obtain ⟨c, rfl⟩ := exists_of_read hread
      exact (upright_createSession h c).bind_reads fun s =>
        (reads_screenOf s).bind fun _ => reads_pure _
  | sendInput id =>
      obtain ⟨text, rfl⟩ := exists_of_read hread
      exact (safe_anyInput h id text).upright.bind_reads fun _ => reads_pure _
  | terminate id =>
      obtain ⟨reason, rfl⟩ := exists_of_read hread
      exact (safe_terminateSession h id reason).upright.bind_reads fun _ => reads_pure _
  | stats =>
      cases hread
      have hstats : Reads (sessionStats (q.address.parameter? "flow_id")) := fun _ => rfl
      exact (hstats.bind fun _ => reads_pure _).upright h
  | session id =>
      cases hread
      exact ((reads_session id).bind fun _ => reads_pure _).upright h
  | validate =>
      obtain ⟨document, rfl⟩ := exists_of_read hread
      exact upright_withFlow h (fun f e' h' =>
        (upright_examine h' f).bind_reads fun _ => reads_pure _) document
  | publish =>
      obtain ⟨document, rfl⟩ := exists_of_read hread
      exact upright_withFlow h (fun f e' h' =>
        (safe_publishFlow h' f).upright.bind_reads fun _ => reads_get_bind fun _ => reads_pure _)
          document
  | flows =>
      cases hread
      exact (reads_get_bind fun _ => reads_pure _).upright h
  | flow id =>
      cases hread
      exact (Reads.bind (reads_get_bind fun _ => reads_ofOption _ _) fun _ =>
        reads_pure _).upright h
  | health =>
      cases hread
      exact (reads_get_bind fun _ => reads_pure _).upright h
  | metrics =>
      cases hread
      exact (reads_pure _).upright h
  | welcome =>
      cases hread
      exact (reads_pure _).upright h

theorem upright_work [Libraries] (h : e.Sound L others) (hwork : x.work a q = .ok work) :
    Upright L others work e := by
  rw [Endpoint.work] at hwork
  cases hread : x.read a q with
  | error _ => rw [hread] at hwork; cases hwork
  | ok w =>
      rw [hread] at hwork
      cases hwork
      split
      · exact upright_read h hread
      · exact (reads_pure _).upright h

end Endpoint

namespace Server

variable {s : Server}

/-- Whatever is asked, the engine is sound after the answer. -/
theorem staysSound_respond [Libraries] (h : s.engine.Sound L others) (q : Request) :
    s.engine.StaysSound L others (s.respond q).2.engine := by
  have hsame := (Engine.Alike.refl s.engine).staysSound h
  rw [respond]
  cases Endpoint.find q.method q.address.path with
  | nowhere => exact hsame
  | otherMethod => exact hsame
  | moved => exact hsame
  | endpoint x =>
      dsimp only
      cases hwork : x.work s.surroundings q with
      | error response => exact hsame
      | ok work =>
          have hcounted : (work.start s.engine).2.Alike (x.serve work s.engine).2 :=
            ⟨⟨rfl, rfl, rfl, rfl, rfl, rfl, rfl⟩, rfl, rfl⟩
          exact (Endpoint.upright_work h hwork).alike hcounted

theorem staysSound_handle [Libraries] (h : s.engine.Sound L others) (q : Request) :
    s.engine.StaysSound L others (s.handle q).2.engine := by
  rw [handle]
  split
  · exact (Engine.Alike.refl s.engine).staysSound h
  · exact staysSound_respond h q

end Server

/-- In every state that a service can be in, however it is used, it is sound under some
ledger. -/
theorem Service.Attainable.sound [Libraries] {w : Service} (hw : w.Attainable) :
    ∃ L, w.Sound L := by
  induction hw with
  | fresh settings sink executor now =>
      exact ⟨_, sound_fresh settings sink executor now fun _ => .blank⟩
  | step _ hstep ih =>
      obtain ⟨L, h⟩ := ih
      exact h.step hstep
  | answer around origins q _ ih =>
      obtain ⟨L, h⟩ := ih
      obtain ⟨L', hL, hgrows, hsound⟩ :=
        Server.staysSound_handle (s := ⟨_, around, origins⟩) h.engine q
      exact ⟨L', sound_of_grows h hL hgrows hsound (hgrows.holds h.published)⟩

end UssdFlows
