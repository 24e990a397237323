import UssdFlows.Proofs.Engine.Programs
import UssdFlows.Proofs.Flow.Verdict

/-!
# Histories of a registry

Flows are published and taken off in any order, and sessions stay pinned to what
was published.  This file says what a registry answers after any sequence of
such changes (`Registry.published_until_recycled`), in terms of an account of
what the changes have come to (`Registry.Entry`, latest first):

* the current version of a flow is the one published last, unless the flow was
  taken off since (`get?_historyOf`);
* under an edition the registry holds the flow that was stored under it last
  (`version?_historyOf`);
* a version is not above those before it, and may take the place of one of them,
  only after a flow that is not being served was published under a number that
  is not above all those of its own (`Recycles`, `climbs_iff`).

The last point is due to `numbered`, which compares a flow with its current
version only: of a flow that was taken off the older versions are stored still,
but none is current.
-/

namespace UssdFlows

namespace Registry

/-- A change of what is being served. -/
inductive Change where
  | publish (f : Flow)
  | unpublish (id : String)

/-- What a change has come to. -/
inductive Entry where
  /-- A flow was published; this is how it was stored. -/
  | published (g : Flow)
  | withdrawn (id : String)

/-- A registry, and what the changes up to now have come to, latest first. -/
structure History where
  registry : Registry
  entries : List Entry

/-- Nothing has been published. -/
def History.start : History := ⟨.empty, []⟩

/-- Makes a change. -/
def History.record (h : History) : Change → History
  | .publish f => ⟨(h.registry.publish f).2, .published (h.registry.publish f).1 :: h.entries⟩
  | .unpublish id => ⟨(h.registry.unpublish id).2, .withdrawn id :: h.entries⟩

/-- Makes changes one after another. -/
def historyOf (cs : List Change) : History := cs.foldl History.record .start

/-! ## Reading an account -/

/-- The flows that were published, as they were stored, latest first. -/
def published : List Entry → List Flow
  | [] => []
  | .published g :: rest => g :: published rest
  | .withdrawn _ :: rest => published rest

/-- The flow that was published last under an id, unless it was taken off since. -/
def servedIn (id : String) : List Entry → Option Flow
  | [] => none
  | .published g :: rest => if g.id = id then some g else servedIn id rest
  | .withdrawn i :: rest => if i = id then none else servedIn id rest

/-- The flow that was stored last under an edition. -/
def storedIn (edition : String × Int) : List Entry → Option Flow
  | [] => none
  | .published g :: rest => if g.edition = edition then some g else storedIn edition rest
  | .withdrawn _ :: rest => storedIn edition rest

/-- Of two versions of a flow the one published later is the later version. -/
def Climbs (entries : List Entry) : Prop :=
  (published entries).Pairwise fun g g' => g.id = g'.id → g'.version < g.version

/-- A flow that was not being served was stored under a number that is not above
those it was stored under before. -/
def Recycles : List Entry → Prop
  | [] => False
  | .published g :: rest =>
    (servedIn g.id rest = none ∧ ∃ g' ∈ published rest, g'.id = g.id ∧ g.version ≤ g'.version) ∨
      Recycles rest
  | .withdrawn _ :: rest => Recycles rest

/-- Whatever takes the place of a version that is being served lies above it. -/
def Bumps : List Entry → Prop
  | [] => True
  | .published g :: rest => (∀ v, servedIn g.id rest = some v → v.version < g.version) ∧ Bumps rest
  | .withdrawn _ :: rest => Bumps rest

variable {id : String} {g g' : Flow} {entries rest : List Entry}

theorem servedIn_cons_of_eq (h : g.id = id) : servedIn id (.published g :: rest) = some g :=
  if_pos h

theorem servedIn_cons_of_ne (h : g.id ≠ id) :
    servedIn id (.published g :: rest) = servedIn id rest := if_neg h

theorem storedIn_of_servedIn (h : servedIn id entries = some g) :
    storedIn (id, g.version) entries = some g := by
  induction entries with
  | nil => cases h
  | cons e rest ih =>
      cases e with
      | published g' =>
          rw [servedIn] at h
          split at h
          · rename_i hid
            cases h
            subst hid
            exact if_pos rfl
          · rename_i hid
            have hed : g'.edition ≠ (id, g.version) := fun he => hid (congrArg Prod.fst he)
            rw [storedIn, if_neg hed]
            exact ih h
      | withdrawn i =>
          rw [servedIn] at h
          split at h
          · cases h
          · exact ih h

/-! ## What the registry answers -/

/-- The registry answers as the account says, and versions that are being served
are followed by later ones. -/
structure History.Faithful (h : History) : Prop where
  current : ∀ id, h.registry.currentVersion? id = (servedIn id h.entries).map Flow.version
  stored : ∀ edition, h.registry.versions.find? edition = storedIn edition h.entries
  bumps : Bumps h.entries

theorem currentVersion?_unpublish (r : Registry) (i : String) :
    (r.unpublish i).2.currentVersion? id = if i = id then none else r.currentVersion? id := by
  show Option.map Prod.snd ((r.current.erase i).find? id) = _
  rw [KeyedList.find?_erase]
  by_cases h : i = id
  · rw [if_pos h, if_pos h.symm]
    rfl
  · rw [if_neg h, if_neg (Ne.symm h)]
    rfl

namespace History.Faithful

variable {h : History}

theorem publish (hf : h.Faithful) (f : Flow) : (h.record (.publish f)).Faithful where
  current := fun id => by
    have hgid : (h.registry.publish f).1.id = f.id := id_numbered h.registry f
    show (h.registry.publish f).2.currentVersion? id =
      (servedIn id (.published (h.registry.publish f).1 :: h.entries)).map Flow.version
    by_cases hid : f.id = id
    · subst hid
      rw [currentVersion?_publish, servedIn_cons_of_eq hgid]
      rfl
    · have hne : (h.registry.publish f).1.id ≠ id := fun he => hid (hgid.symm.trans he)
      rw [currentVersion?_publish_of_ne hid, servedIn_cons_of_ne hne]
      exact hf.current id
  stored := fun edition => by
    show (h.registry.versions.put (h.registry.numbered f)).find? edition =
      storedIn edition (.published (h.registry.numbered f) :: h.entries)
    rw [KeyedList.find?_put, storedIn, hf.stored edition]
  bumps := by
    refine ⟨fun v hv => ?_, hf.bumps⟩
    have hgid : (h.registry.publish f).1.id = f.id := id_numbered h.registry f
    rw [hgid] at hv
    have hcurrent : h.registry.currentVersion? f.id = some v.version := by
      rw [hf.current, hv]
      rfl
    exact lt_version_publish hcurrent

theorem unpublish (hf : h.Faithful) (i : String) : (h.record (.unpublish i)).Faithful where
  current := fun id => by
    show (h.registry.unpublish i).2.currentVersion? id =
      (servedIn id (.withdrawn i :: h.entries)).map Flow.version
    rw [currentVersion?_unpublish, servedIn]
    by_cases hid : i = id
    · rw [if_pos hid, if_pos hid]
      rfl
    · rw [if_neg hid, if_neg hid]
      exact hf.current id
  stored := hf.stored
  bumps := hf.bumps

end History.Faithful

/-- **Histories.**  After any changes the registry answers as the account of them
says. -/
theorem faithful_historyOf (cs : List Change) : (historyOf cs).Faithful := by
  refine List.foldlRecOn cs History.record ⟨fun _ => rfl, fun _ => rfl, trivial⟩ ?_
  intro h hf c _
  cases c with
  | publish f => exact hf.publish f
  | unpublish id => exact hf.unpublish id

theorem version?_historyOf (cs : List Change) (id : String) (v : Int) :
    (historyOf cs).registry.version? id v = storedIn (id, v) (historyOf cs).entries :=
  (faithful_historyOf cs).stored (id, v)

theorem get?_historyOf (cs : List Change) (id : String) :
    (historyOf cs).registry.get? id = servedIn id (historyOf cs).entries := by
  rw [get?, (faithful_historyOf cs).current]
  cases hs : servedIn id (historyOf cs).entries with
  | none => rfl
  | some g =>
      rw [Option.map_some, Option.bind_some, version?_historyOf]
      exact storedIn_of_servedIn hs

/-! ## What stays stored -/

/-- What is stored later hides what is stored under the same edition before. -/
theorem storedIn_append (edition : String × Int) (later earlier : List Entry) :
    storedIn edition (later ++ earlier) =
      (storedIn edition later).or (storedIn edition earlier) := by
  induction later with
  | nil => rfl
  | cons e rest ih =>
      cases e with
      | published g =>
          rw [List.cons_append, storedIn, storedIn, ih]
          by_cases h : g.edition = edition
          · rw [if_pos h, if_pos h, Option.some_or]
          · rw [if_neg h, if_neg h]
      | withdrawn i => exact ih

/-- Nothing is stored under an edition that no published flow has. -/
theorem storedIn_eq_none {edition : String × Int} (h : ∀ g ∈ published entries, g.edition ≠ edition) :
    storedIn edition entries = none := by
  induction entries with
  | nil => rfl
  | cons e rest ih =>
      cases e with
      | published g =>
          have hne : g.edition ≠ edition := h g (List.mem_cons_self ..)
          exact (if_neg hne).trans (ih fun x hx => h x (List.mem_cons_of_mem _ hx))
      | withdrawn i => exact ih h

/-- A flow is found under its edition exactly if no other one was stored under it
since. -/
theorem storedIn_published_iff {later earlier : List Entry} :
    storedIn g.edition (later ++ .published g :: earlier) = some g ↔
      ∀ g', storedIn g.edition later = some g' → g' = g := by
  have hself : storedIn g.edition (.published g :: earlier) = some g := if_pos rfl
  rw [storedIn_append, hself]
  cases hs : storedIn g.edition later with
  | none => exact ⟨fun _ g' hg' => absurd hg' nofun, fun _ => rfl⟩
  | some v =>
      rw [Option.some_or, Option.some.injEq]
      constructor
      · rintro rfl g' hg'
        exact (Option.some.inj hg').symm
      · intro h
        exact h v rfl

/-- While a flow is not taken off, one of its versions lies below all that are
published after it. -/
theorem lt_of_not_withdrawn {later earlier : List Entry}
    (hb : Bumps (later ++ .published g :: earlier))
    (hkept : ∀ i, .withdrawn i ∈ later → i ≠ g.id) :
    (∀ g' ∈ published later, g'.id = g.id → g.version < g'.version) ∧
      ∃ v, servedIn g.id (later ++ .published g :: earlier) = some v ∧ g.version ≤ v.version := by
  induction later with
  | nil => exact ⟨fun g' hg' => absurd hg' List.not_mem_nil, g, if_pos rfl, Int.le_refl _⟩
  | cons e rest ih =>
      have hkept' : ∀ i, .withdrawn i ∈ rest → i ≠ g.id :=
        fun i hi => hkept i (List.mem_cons_of_mem _ hi)
      cases e with
      | published g' =>
          obtain ⟨hall, v, hv, hle⟩ := ih hb.2 hkept'
          by_cases hid : g'.id = g.id
          · have hlt : v.version < g'.version := hb.1 v (by rw [hid]; exact hv)
            refine ⟨fun x hx hxid => ?_, g', servedIn_cons_of_eq hid, by omega⟩
            rcases List.mem_cons.1 hx with rfl | hx
            · omega
            · exact hall x hx hxid
          · refine ⟨fun x hx hxid => ?_, v, (servedIn_cons_of_ne hid).trans hv, hle⟩
            rcases List.mem_cons.1 hx with rfl | hx
            · exact absurd hxid hid
            · exact hall x hx hxid
      | withdrawn i =>
          obtain ⟨hall, v, hv, hle⟩ := ih hb hkept'
          have hi : i ≠ g.id := hkept i (List.mem_cons_self ..)
          exact ⟨hall, v, (if_neg hi).trans hv, hle⟩

/-! ## When versions climb -/

/-- Of versions that climb the one being served is the latest. -/
theorem Climbs.le_of_servedIn {v : Flow} (h : Climbs entries) (hs : servedIn id entries = some v)
    (hg : g ∈ published entries) (hid : g.id = id) : g.version ≤ v.version := by
  induction entries with
  | nil => cases hs
  | cons e rest ih =>
      cases e with
      | published x =>
          obtain ⟨hx, hrest⟩ := List.pairwise_cons.1 h
          by_cases hxid : x.id = id
          · rw [servedIn_cons_of_eq hxid, Option.some.injEq] at hs
            subst hs
            rcases List.mem_cons.1 hg with rfl | hg
            · exact Int.le_refl _
            · exact Int.le_of_lt (hx g hg (hxid.trans hid.symm))
          · rw [servedIn_cons_of_ne hxid] at hs
            rcases List.mem_cons.1 hg with rfl | hg
            · exact absurd hid hxid
            · exact ih hrest hs hg
      | withdrawn i =>
          rw [servedIn] at hs
          split at hs
          · cases hs
          · exact ih h hs hg

/-- Versions climb exactly if none is recycled. -/
theorem climbs_iff (hb : Bumps entries) : Climbs entries ↔ ¬ Recycles entries := by
  induction entries with
  | nil => exact ⟨fun _ h => h, fun _ => List.Pairwise.nil⟩
  | cons e rest ih =>
      cases e with
      | withdrawn i => exact ih hb
      | published g =>
          have hih := ih hb.2
          rw [Climbs, published, List.pairwise_cons, ← Climbs, hih, Recycles, not_or]
          refine and_congr_left fun hno => ⟨?_, ?_⟩
          · rintro hall ⟨-, g', hg', hid, hle⟩
            have hlt := hall g' hg' hid.symm
            omega
          · intro hfresh g' hg' hid
            cases hs : servedIn g.id rest with
            | none => exact Int.not_le.1 fun hle => hfresh ⟨hs, g', hg', hid.symm, hle⟩
            | some v =>
                have hlt : v.version < g.version := hb.1 v hs
                have hle : g'.version ≤ v.version := (hih.2 hno).le_of_servedIn hs hg' hid.symm
                omega

/-- Versions that climb are all kept. -/
theorem Climbs.storedIn (h : Climbs entries) (hg : g ∈ published entries) :
    storedIn g.edition entries = some g := by
  induction entries with
  | nil => exact absurd hg List.not_mem_nil
  | cons e rest ih =>
      cases e with
      | published x =>
          obtain ⟨hx, hrest⟩ := List.pairwise_cons.1 h
          rcases List.mem_cons.1 hg with rfl | hg
          · exact if_pos rfl
          · have hne : x.edition ≠ g.edition := by
              intro hed
              have hlt := hx g hg (congrArg Prod.fst hed)
              have hv : x.version = g.version := congrArg Prod.snd hed
              omega
            exact (if_neg hne).trans (ih hrest hg)
      | withdrawn i => exact ih h hg

/-- **Published until recycled.**  After any changes of a registry that was empty,
the current version of a flow is the one published last, if it was not taken off
since; and a session finds what was stored last under the edition it is pinned
to.  That is the flow it started on, unless another one was stored under the
same edition since; and it is that flow for certain while the flow is not taken
off, for until then versions climb.  The versions of all flows climb throughout,
and all are kept, exactly if no flow was published while it was not being served
under a number that is not above those it had before. -/
theorem published_until_recycled (cs : List Change) :
    (∀ id, (historyOf cs).registry.get? id = servedIn id (historyOf cs).entries) ∧
    (∀ (e : Engine) (s : Session), e.registry = (historyOf cs).registry →
      (EngineM.flowOf s).start e =
        (match storedIn (s.flowId, s.flowVersion) (historyOf cs).entries with
          | some g => .ok g
          | none => .error (.flowNotFound s.flowId (some s.flowVersion)), e)) ∧
    (∀ later g earlier, (historyOf cs).entries = later ++ .published g :: earlier →
      ((historyOf cs).registry.version? g.id g.version = some g ↔
        ∀ g', storedIn g.edition later = some g' → g' = g) ∧
      ((∀ i, .withdrawn i ∈ later → i ≠ g.id) →
        (historyOf cs).registry.version? g.id g.version = some g ∧
        ∀ g' ∈ published later, g'.id = g.id → g.version < g'.version)) ∧
    (Climbs (historyOf cs).entries ↔ ¬ Recycles (historyOf cs).entries) ∧
    (¬ Recycles (historyOf cs).entries → ∀ g ∈ published (historyOf cs).entries,
      (historyOf cs).registry.version? g.id g.version = some g) := by
  have hbumps := (faithful_historyOf cs).bumps
  refine ⟨get?_historyOf cs, fun e s he => ?_, fun later g earlier hsplit => ?_, climbs_iff hbumps,
    fun hno g hg => ?_⟩
  · have hfind : e.registry.version? s.flowId s.flowVersion =
        storedIn (s.flowId, s.flowVersion) (historyOf cs).entries := by
      rw [he, version?_historyOf]
    rw [EngineM.flowOf, EngineM.start_bind_of_ok (EngineM.start_get e), hfind]
    cases storedIn (s.flowId, s.flowVersion) (historyOf cs).entries <;> rfl
  · rw [version?_historyOf, hsplit]
    refine ⟨storedIn_published_iff, fun hkept => ?_⟩
    obtain ⟨hall, -⟩ := lt_of_not_withdrawn (hsplit ▸ hbumps) hkept
    refine ⟨storedIn_published_iff.2 fun g' hg' => ?_, hall⟩
    -- a later flow of the same edition would lie above its own version
    have hnone : storedIn g.edition later = none := by
      refine storedIn_eq_none fun x hx hed => ?_
      have hlt := hall x hx (congrArg Prod.fst hed)
      have hv : x.version = g.version := congrArg Prod.snd hed
      omega
    rw [hnone] at hg'
    cases hg'
  · rw [version?_historyOf]
    exact ((climbs_iff hbumps).2 hno).storedIn hg

/-- A flow is published, taken off, and published again with its nodes the other
way round. -/
def recycling : List Change :=
  [.publish .greeting, .unpublish "greeting", .publish .greetingReversed]

/-- Both flows are published as version one, and sessions of the first one find the
second. -/
theorem recycled_greeting :
    (historyOf recycling).entries =
      [.published .greetingReversed, .withdrawn "greeting", .published .greeting] ∧
    (historyOf recycling).registry.version? "greeting" 1 ≠ some .greeting ∧
    ¬ Climbs (historyOf recycling).entries := by
  have hentries : (historyOf recycling).entries =
      [.published .greetingReversed, .withdrawn "greeting", .published .greeting] := rfl
  have hother : Flow.greetingReversed ≠ .greeting := by decide +kernel
  obtain ⟨-, -, hkept, hclimbs, -⟩ := published_until_recycled recycling
  refine ⟨hentries, fun hfound => hother ?_, fun hc => hclimbs.1 hc ?_⟩
  · have hlast := (hkept [.published .greetingReversed, .withdrawn "greeting"] .greeting []
      hentries).1.1 hfound
    exact hlast _ rfl
  · rw [hentries]
    exact Or.inl ⟨rfl, .greeting, List.mem_cons_self .., rfl, Int.le_refl _⟩

end Registry

end UssdFlows
