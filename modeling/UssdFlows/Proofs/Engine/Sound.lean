import UssdFlows.Proofs.Engine.Stages
import UssdFlows.Proofs.Flow.Verdict

/-!
# Sound states of the engine

This file says what holds of the engine in every state that it can reach, and
what keeps it true.

A stored session is *placed* (`Session.Placed`) if the version it is pinned to
is stored, it rests at a node of that version, and, while it is active, it
rests at a conditional only if something is about to take it on.  The engine is
*sound* (`Engine.Sound`) if every stored flow has a sound graph, the current
versions are stored and are the latest, and every stored session is placed.

Two things about a session are not written in its record, though they never
change once it has its id, and a `Ledger` holds them: the flow that the id
stands for, and nodes that the session has left for good.
-/

namespace UssdFlows

open Relation

/-! ## The ids of sessions -/

/-- An id that was given to a session before the session with a number. -/
def IsIssued (next : Nat) (id : String) : Prop := ∃ k, k < next ∧ id = sessionId k

theorem sessionId_injective {m n : Nat} (h : sessionId m = sessionId n) : m = n := by
  have hlist := congrArg String.toList h
  rw [sessionId, sessionId, String.toList_append, String.toList_append,
    List.append_cancel_left_eq] at hlist
  exact Number.paddedText_injective (String.toList_inj.1 hlist)

theorem IsIssued.mono {m n : Nat} {id : String} (h : IsIssued m id) (hmn : m ≤ n) :
    IsIssued n id := by
  obtain ⟨k, hk, rfl⟩ := h
  exact ⟨k, Nat.lt_of_lt_of_le hk hmn, rfl⟩

theorem isIssued_succ (n : Nat) : IsIssued (n + 1) (sessionId n) := ⟨n, Nat.lt_succ_self n, rfl⟩

/-- The id of the next session is new. -/
theorem not_isIssued_self (n : Nat) : ¬ IsIssued n (sessionId n) := by
  rintro ⟨k, hk, hid⟩
  have hkn : n = k := sessionId_injective hid
  omega

theorem IsIssued.ne {n : Nat} {id : String} (h : IsIssued n id) : id ≠ sessionId n := by
  rintro rfl
  exact not_isIssued_self n h

/-! ## Ledgers -/

/-- A flow without nodes, which stands for the flow of sessions that do not
exist yet. -/
def Flow.blank : Flow where
  id := ""
  name := none
  description := none
  version := 1
  startNode := ""
  nodes := .empty
  defaults := .empty
  one_le_version := one_le_firstVersion

/-- What is known of sessions beyond their records. -/
structure Ledger where
  /-- The flow that a session walks through. -/
  pin : String → Flow
  /-- Nodes that a session has left for good. -/
  behind : String → Set String

namespace Ledger

variable {L L' L'' : Ledger} {id a b : String}

/-- A node comes strictly after all nodes that a session has left. -/
def Beyond (L : Ledger) (id node : String) : Prop :=
  ∀ p ∈ L.behind id, TransGen (L.pin id).Edge p node

theorem Beyond.of_edge (h : L.Beyond id a) (hab : (L.pin id).Edge a b) : L.Beyond id b :=
  fun p hp => (h p hp).tail hab

/-- Two ledgers say the same of all sessions before the one with a number. -/
def Agrees (next : Nat) (L L' : Ledger) : Prop :=
  ∀ id, IsIssued next id → L'.pin id = L.pin id ∧ L'.behind id = L.behind id

theorem Agrees.refl (next : Nat) (L : Ledger) : Agrees next L L := fun _ _ => ⟨rfl, rfl⟩

theorem Agrees.trans {m n : Nat} (h : Agrees m L L') (h' : Agrees n L' L'') (hmn : m ≤ n) :
    Agrees m L L'' := by
  intro id hid
  obtain ⟨h1, h2⟩ := h id hid
  obtain ⟨h3, h4⟩ := h' id (hid.mono hmn)
  exact ⟨h3.trans h1, h4.trans h2⟩

theorem Agrees.beyond {next : Nat} (h : Agrees next L L') (hid : IsIssued next id)
    (hb : L.Beyond id a) : L'.Beyond id a := by
  obtain ⟨hpin, hbehind⟩ := h id hid
  intro p hp
  rw [hpin]
  rw [hbehind] at hp
  exact hb p hp

/-- The ledger with the flow of one session put down. -/
def pinned (L : Ledger) (id : String) (f : Flow) : Ledger :=
  { L with pin := fun i => if i = id then f else L.pin i }

theorem pin_pinned (L : Ledger) (id : String) (f : Flow) : (L.pinned id f).pin id = f := if_pos rfl

/-- What is put down of the next session concerns no session before it. -/
theorem agrees_pinned (L : Ledger) (next : Nat) (f : Flow) :
    Agrees next L (L.pinned (sessionId next) f) :=
  fun _ hid => ⟨if_neg hid.ne, rfl⟩

end Ledger

/-! ## Sound registries -/

namespace Registry

/-- Every stored version has a sound graph, the current version of a flow is
stored, and no stored version is later. -/
structure Sound (r : Registry) : Prop where
  validated : ∀ f ∈ r.versions.items, f.WellFormed
  resolves : ∀ id v, r.currentVersion? id = some v → ∃ f, r.version? id v = some f
  latest : ∀ f ∈ r.versions.items, ∃ v, r.currentVersion? f.id = some v ∧ f.version ≤ v

theorem sound_empty : Registry.empty.Sound where
  validated := fun _ hf => absurd hf (List.not_mem_nil)
  resolves := fun _ _ h => nomatch h
  latest := fun _ hf => absurd hf (List.not_mem_nil)

theorem version?_of_mem {r : Registry} {f : Flow} (h : f ∈ r.versions.items) :
    r.version? f.id f.version = some f := KeyedList.find?_of_mem h

theorem mem_of_version? {r : Registry} {id : String} {v : Int} {f : Flow}
    (h : r.version? id v = some f) : f ∈ r.versions.items := KeyedList.mem_of_find? h

theorem edition_of_version? {r : Registry} {id : String} {v : Int} {f : Flow}
    (h : r.version? id v = some f) : f.id = id ∧ f.version = v := by
  have hed : f.edition = (id, v) := KeyedList.key_of_find? h
  exact ⟨congrArg Prod.fst hed, congrArg Prod.snd hed⟩

/-- The graph of a flow does not depend on its version. -/
theorem wellFormed_numbered {r : Registry} {f : Flow} (h : f.WellFormed) :
    (r.numbered f).WellFormed := by
  rw [numbered]
  split
  · exact h
  · split
    · exact ⟨h.start_exists, h.targets_exist, h.keys_distinct, h.acyclic⟩
    · exact h

theorem mem_of_get? {r : Registry} {id : String} {f : Flow} (hf : r.get? id = some f) :
    f ∈ r.versions.items ∧ f.id = id := by
  obtain ⟨v, -, hv⟩ := Option.bind_eq_some_iff.1 hf
  exact ⟨mem_of_version? hv, (edition_of_version? hv).1⟩

/-- A flow is missing only if nothing is stored under its id. -/
theorem Sound.ne_of_get?_eq_none {r : Registry} (h : r.Sound) {id : String}
    (hget : r.get? id = none) : ∀ f ∈ r.versions.items, f.id ≠ id := by
  rintro f hf rfl
  obtain ⟨v, hv, -⟩ := h.latest f hf
  obtain ⟨g, hg⟩ := h.resolves f.id v hv
  rw [get?, hv, Option.bind_some, hg] at hget
  cases hget

/-- No stored version of a flow is later than its current one. -/
def Rising (r : Registry) : Prop :=
  ∀ f ∈ r.versions.items, ∃ v, r.currentVersion? f.id = some v ∧ f.version ≤ v

theorem Sound.rising {r : Registry} (h : r.Sound) : r.Rising := h.latest

theorem Rising.of_same {r r' : Registry} (h : r.Rising) (hversions : r'.versions = r.versions)
    (hcurrent : r'.current = r.current) : r'.Rising := by
  intro f hf
  rw [currentVersion?, hcurrent]
  exact h f (hversions ▸ hf)

/-- The version that a flow is stored as is later than all stored versions. -/
theorem Rising.lt_numbered {r : Registry} (h : r.Rising) {f g : Flow} (hg : g ∈ r.versions.items)
    (hid : g.id = f.id) : g.version < (r.numbered f).version := by
  obtain ⟨v, hv, hle⟩ := h g hg
  rw [hid] at hv
  exact Int.lt_of_le_of_lt hle (lt_version_publish hv)

/-- Publishing replaces no stored version. -/
theorem Rising.mem_publish {r : Registry} (h : r.Rising) {f g : Flow} :
    g ∈ (r.publish f).2.versions.items ↔ g = r.numbered f ∨ g ∈ r.versions.items := by
  have hfind : ∀ k, (r.publish f).2.versions.find? k =
      if (r.numbered f).edition = k then some (r.numbered f) else r.versions.find? k :=
    fun k => KeyedList.find?_put r.versions (r.numbered f) k
  constructor
  · intro hg
    have hg' := KeyedList.find?_of_mem hg
    rw [hfind] at hg'
    split at hg'
    · exact Or.inl (Option.some.inj hg').symm
    · exact Or.inr (KeyedList.mem_of_find? hg')
  · rintro (rfl | hg)
    · refine KeyedList.mem_of_find? (k := (r.numbered f).edition) ?_
      rw [hfind, if_pos rfl]
    · refine KeyedList.mem_of_find? (k := g.edition) ?_
      rw [hfind, if_neg, KeyedList.find?_of_mem hg]
      intro hed
      have hid : g.id = f.id := by
        rw [← id_numbered r f]
        exact (congrArg Prod.fst hed).symm
      have hlt := h.lt_numbered hg hid
      have hv : (r.numbered f).version = g.version := congrArg Prod.snd hed
      omega

/-- What is published becomes the latest version of its flow. -/
theorem Rising.publish {r : Registry} (h : r.Rising) (f : Flow) : (r.publish f).2.Rising := by
  intro g hg
  by_cases hid : g.id = f.id
  · refine ⟨(r.numbered f).version, by rw [hid]; exact currentVersion?_publish r f, ?_⟩
    rcases h.mem_publish.1 hg with rfl | hg
    · exact Int.le_refl _
    · exact Int.le_of_lt (h.lt_numbered hg hid)
  · rcases h.mem_publish.1 hg with rfl | hg
    · exact absurd (id_numbered r f) hid
    · obtain ⟨v, hv, hle⟩ := h g hg
      exact ⟨v, (currentVersion?_publish_of_ne (Ne.symm hid)).trans hv, hle⟩

/-- Every version that is stored stays stored. -/
def Retains (r r' : Registry) : Prop :=
  ∀ id v f, r.version? id v = some f → r'.version? id v = some f

theorem retains_of_versions {r r' : Registry} (h : r'.versions = r.versions) : r.Retains r' := by
  intro id v f hf
  rwa [version?, h]

theorem Retains.trans {r r' r'' : Registry} (h : r.Retains r') (h' : r'.Retains r'') :
    r.Retains r'' := fun id v f hf => h' id v f (h id v f hf)

theorem Rising.retains_publish {r : Registry} (h : r.Rising) (f : Flow) :
    r.Retains (r.publish f).2 := by
  intro id v g hg
  obtain ⟨rfl, rfl⟩ := edition_of_version? hg
  exact version?_of_mem (h.mem_publish.2 (Or.inr (mem_of_version? hg)))

/-- **Publishing is sound.**  A flow with a sound graph joins the stored
versions as the latest of its own. -/
theorem Sound.publish {r : Registry} (h : r.Sound) {f : Flow} (hf : f.WellFormed) :
    (r.publish f).2.Sound where
  validated := fun g hg => by
    rcases h.rising.mem_publish.1 hg with rfl | hg
    · exact wellFormed_numbered hf
    · exact h.validated g hg
  resolves := fun id v hv => by
    by_cases hid : f.id = id
    · subst hid
      rw [currentVersion?_publish, Option.some.injEq] at hv
      subst hv
      have hstored := version?_publish r f
      rw [show (r.publish f).1.id = f.id from id_numbered r f] at hstored
      exact ⟨_, hstored⟩
    · rw [currentVersion?_publish_of_ne hid] at hv
      obtain ⟨g, hg⟩ := h.resolves id v hv
      obtain ⟨hgid, hgv⟩ := edition_of_version? hg
      subst hgid hgv
      exact ⟨g, version?_of_mem (h.rising.mem_publish.2 (Or.inr (mem_of_version? hg)))⟩
  latest := h.rising.publish f

end Registry

/-! ## Sound engines -/

namespace Engine

/-- What is stored stays stored, ids that were issued stay issued, and the
executor stays the same. -/
structure Grows (e e' : Engine) : Prop where
  versions : ∀ f ∈ e.registry.versions.items, f ∈ e'.registry.versions.items
  next : e.nextSession ≤ e'.nextSession
  executor : e'.executor = e.executor

theorem Grows.trans {e e' e'' : Engine} (h : e.Grows e') (h' : e'.Grows e'') : e.Grows e'' :=
  ⟨fun f hf => h'.versions f (h.versions f hf), Nat.le_trans h.next h'.next,
    h'.executor.trans h.executor⟩

theorem SameService.grows {e e' : Engine} (h : e.SameService e') : e.Grows e' :=
  ⟨fun _ hf => h.versions ▸ hf, Nat.le_of_eq h.nextSession.symm, h.executor⟩

theorem Grows.refl (e : Engine) : e.Grows e := (SameService.refl e).grows

theorem Grows.version? {e e' : Engine} (h : e.Grows e') {id : String} {v : Int} {f : Flow}
    (hf : e.registry.version? id v = some f) : e'.registry.version? id v = some f := by
  obtain ⟨rfl, rfl⟩ := Registry.edition_of_version? hf
  exact Registry.version?_of_mem (h.versions f (Registry.mem_of_version? hf))

end Engine

/-- A session is where it should be: its id was issued, the version it is
pinned to is stored, and it rests at a node of it.  While it is active that
node lies beyond those it has left, and if the node is a conditional then the
session is on the move. -/
structure Session.Placed (L : Ledger) (moving : String → Prop) (e : Engine) (s : Session) :
    Prop where
  issued : IsIssued e.nextSession s.id
  pinned : e.registry.version? s.flowId s.flowVersion = some (L.pin s.id)
  resting : ∃ n, s.currentNode = some n.id ∧ (L.pin s.id).node? n.id = some n ∧
    (s.isActive = true → L.Beyond s.id n.id ∧ (n.isTransient = true → moving s.id))

namespace Session.Placed

variable {L L' : Ledger} {moving moving' : String → Prop} {e e' : Engine} {s s' : Session}

theorem mono (h : s.Placed L moving e) (hg : e.Grows e') (hL : L.Agrees e.nextSession L')
    (hm : moving s.id → moving' s.id) : s.Placed L' moving' e' := by
  obtain ⟨hpin, -⟩ := hL s.id h.issued
  obtain ⟨n, hnode, hn, hactive⟩ := h.resting
  refine ⟨h.issued.mono hg.next, ?_, n, hnode, ?_, fun ha => ?_⟩
  · rw [hpin]
    exact hg.version? h.pinned
  · rw [hpin]
    exact hn
  · obtain ⟨hbeyond, hmove⟩ := hactive ha
    exact ⟨hL.beyond h.issued hbeyond, fun ht => hm (hmove ht)⟩

/-- Whether a session is placed depends on its id, its flow, its node and its
status only; a session that is over is placed all the more. -/
theorem congr (h : s.Placed L moving e) (hid : s'.id = s.id) (hflow : s'.flowId = s.flowId)
    (hversion : s'.flowVersion = s.flowVersion) (hnode : s'.currentNode = s.currentNode)
    (ha : s'.isActive = true → s.isActive = true ∧ (moving s.id → moving' s.id)) :
    s'.Placed L moving' e := by
  obtain ⟨n, hn, hn', hactive⟩ := h.resting
  refine ⟨hid ▸ h.issued, ?_, n, hnode.trans hn, hid ▸ hn', fun hact => ?_⟩
  · rw [hflow, hversion, hid]
    exact h.pinned
  · rw [hid]
    exact ⟨(hactive (ha hact).1).1, fun ht => (ha hact).2 ((hactive (ha hact).1).2 ht)⟩

end Session.Placed

namespace Engine

/-- Every stored flow has a sound graph and every stored session is placed;
`moving` says which sessions are on the move. -/
structure Sound (L : Ledger) (moving : String → Prop) (e : Engine) : Prop where
  replaced : e.replaced = []
  registry : e.registry.Sound
  placed : ∀ id s, e.store.get? id = some s → s.Placed L moving e
  fresh : ∀ id, ¬ IsIssued e.nextSession id → L.behind id = ∅

namespace Sound

variable {L L' : Ledger} {moving moving' : String → Prop} {e e' : Engine} {s : Session}

/-- The registry of an engine that serves the same flows is as sound. -/
theorem registry_of_same (h : e.Sound L moving) (hs : e.SameService e') : e'.registry.Sound := by
  refine ⟨fun f hf => h.registry.validated f (hs.versions ▸ hf), fun id v hv => ?_,
    h.registry.rising.of_same hs.versions hs.current⟩
  rw [hs.version?]
  refine h.registry.resolves id v ?_
  rw [Registry.currentVersion?, ← hs.current]
  exact hv

/-- An engine that serves the same flows is sound if its sessions are placed. -/
theorem of_placed (h : e.Sound L moving) (hs : e.SameService e')
    (hp : ∀ id s, e'.store.get? id = some s → s.Placed L moving' e) : e'.Sound L moving' where
  replaced := hs.replaced.trans h.replaced
  registry := h.registry_of_same hs
  placed := fun id s hget => (hp id s hget).mono hs.grows (.refl _ L) fun hm => hm
  fresh := fun id hid => h.fresh id (hs.nextSession ▸ hid)

/-- More sessions may be said to be on the move. -/
theorem mono (h : e.Sound L moving) (hm : ∀ id, moving id → moving' id) : e.Sound L moving' :=
  h.of_placed (.refl e) fun id s hget =>
    (h.placed id s hget).mono (.refl e) (.refl _ L) (hm s.id)

/-- A session that is not active, or not at a conditional, need not be said to
be on the move. -/
theorem narrow (h : e.Sound L moving) (hm : ∀ id s n, e.store.get? id = some s →
    s.isActive = true → s.currentNode = some n.id → (L.pin s.id).node? n.id = some n →
    n.isTransient = true → moving s.id → moving' s.id) : e.Sound L moving' := by
  refine h.of_placed (.refl e) fun id s hget => ?_
  have hp := h.placed id s hget
  obtain ⟨n, hnode, hn, hactive⟩ := hp.resting
  refine ⟨hp.issued, hp.pinned, n, hnode, hn, fun ha => ?_⟩
  exact ⟨(hactive ha).1, fun ht => hm id s n hget ha hnode hn ht ((hactive ha).2 ht)⟩

/-- Soundness depends on the flows and the sessions only. -/
theorem of_same (h : e.Sound L moving) (hs : e.SameService e') (hstore : e'.store = e.store) :
    e'.Sound L moving :=
  h.of_placed hs fun id s hget => h.placed id s (hstore ▸ hget)

/-- A session that is placed may be kept. -/
theorem keep (h : e.Sound L moving) (hs : s.Placed L moving' e)
    (hm : ∀ id, id ≠ s.id → moving id → moving' id) : (e.keep s).Sound L moving' := by
  refine h.of_placed (e.sameService_keep s) fun id s' hget => ?_
  rw [get?_keep] at hget
  split at hget
  · cases hget
    exact hs
  · rename_i hne
    have hid : s'.id = id := KeyedList.key_of_find? hget
    refine (h.placed id s' hget).mono (.refl e) (.refl _ L) (hm s'.id ?_)
    rw [hid]
    exact Ne.symm hne

/-- What a ledger says of sessions that do not exist yet has no bearing. -/
theorem of_agrees (h : e.Sound L moving) (hL : L.Agrees e.nextSession L')
    (hfresh : ∀ id, ¬ IsIssued e.nextSession id → L'.behind id = ∅) : e.Sound L' moving where
  replaced := h.replaced
  registry := h.registry
  placed := fun id s hget => (h.placed id s hget).mono (.refl e) hL fun hm => hm
  fresh := hfresh

/-- The flow of the next session may be put down. -/
theorem pinned (h : e.Sound L moving) (f : Flow) :
    e.Sound (L.pinned (sessionId e.nextSession) f) moving :=
  h.of_agrees (L.agrees_pinned e.nextSession f) h.fresh

/-- The flow of a stored session, and the node where it rests. -/
theorem stored (h : e.Sound L moving) {id : String} (hget : e.store.get? id = some s) :
    s.id = id ∧ IsIssued e.nextSession id ∧ (L.pin id).WellFormed ∧
      e.registry.version? s.flowId s.flowVersion = some (L.pin id) := by
  have hid : s.id = id := KeyedList.key_of_find? hget
  have hp := h.placed id s hget
  rw [← hid]
  exact ⟨rfl, hp.issued, h.registry.validated _ (Registry.mem_of_version? hp.pinned), hp.pinned⟩

end Sound

/-- An engine that has seen nothing is sound. -/
theorem sound_fresh (settings : Settings) (sink : Option Sink) (executor : Option Executor)
    (now : Instant) (pin : String → Flow) (moving : String → Prop) :
    (Engine.fresh settings sink executor now).Sound ⟨pin, fun _ => ∅⟩ moving where
  replaced := rfl
  registry := Registry.sound_empty
  placed := fun _ _ hget => nomatch hget
  fresh := fun _ _ => rfl

end Engine

end UssdFlows
