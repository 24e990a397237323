import UssdFlows.Flow.Basic
import UssdFlows.Time.Instant

/-!
# Published flows

The registry keeps every version of every flow that was published, and knows
which version of a flow is current.  Taking a flow off keeps its versions, so
that sessions pinned to them can go on.

A flow whose version is not above the current one is stored as the next
version (`publish`); a stored version is found again under its id and number
(`version?_publish`).
-/

namespace UssdFlows

/-- How often sessions have completed a flow. -/
structure Usage where
  flowId : String
  count : Nat
  lastUsedAt : Option Instant
  deriving DecidableEq, Repr

/-- A flow that nobody has completed yet. -/
def Usage.unused (flowId : String) : Usage := ⟨flowId, 0, none⟩

/-- The id and the version of a flow. -/
def Flow.edition (f : Flow) : String × Int := (f.id, f.version)

/-- The flows that were published. -/
structure Registry where
  /-- Every version that was stored. -/
  versions : KeyedList Flow.edition
  /-- The current version of each flow that is being served. -/
  current : Dict Int
  /-- How often each flow was completed. -/
  usage : KeyedList Usage.flowId

namespace Registry

/-- The registry without flows. -/
def empty : Registry := ⟨.empty, .empty, .empty⟩

/-- The number of the version that is current. -/
def currentVersion? (r : Registry) (id : String) : Option Int :=
  (r.current.find? id).map Prod.snd

/-- A stored version of a flow. -/
def version? (r : Registry) (id : String) (version : Int) : Option Flow :=
  r.versions.find? (id, version)

/-- The current version of a flow. -/
def get? (r : Registry) (id : String) : Option Flow :=
  (r.currentVersion? id).bind (r.version? id)

/-- Whether a flow is being served. -/
def isPublished (r : Registry) (id : String) : Bool := r.current.contains id

/-- The flow as it is stored: under its own version, or under the next one if
its own is not above the current version. -/
def numbered (r : Registry) (f : Flow) : Flow :=
  match r.currentVersion? f.id with
  | none => f
  | some v =>
    if h : f.version ≤ v then
      f.withVersion (v + 1) (Int.le_trans f.one_le_version (Int.le_trans h (Int.le_add_one (Int.le_refl v))))
    else f

/-- Stores a flow and makes it current; returns it as stored. -/
def publish (r : Registry) (f : Flow) : Flow × Registry :=
  let g := r.numbered f
  (g, { versions := r.versions.put g
        current := r.current.put (g.id, g.version)
        usage := r.usage.putNew (.unused g.id) })

/-- Takes a flow off; returns whether it was being served. -/
def unpublish (r : Registry) (id : String) : Bool × Registry :=
  (r.isPublished id, { r with current := r.current.erase id })

/-- The current versions of all flows that are being served, sorted by id. -/
def list (r : Registry) : List Flow :=
  (r.current.items.mergeSort fun a b => !decide (b.1 < a.1)).filterMap fun e => r.version? e.1 e.2

/-- How often a flow was completed. -/
def usage? (r : Registry) (id : String) : Option Usage := r.usage.find? id

/-- Counts a session that completed a flow. -/
def countUse (r : Registry) (id : String) (now : Instant) : Registry :=
  let u := (r.usage? id).getD (.unused id)
  { r with usage := r.usage.put { u with flowId := id, count := u.count + 1, lastUsedAt := some now } }

/-! ## Laws -/

@[simp] theorem id_numbered (r : Registry) (f : Flow) : (r.numbered f).id = f.id := by
  unfold numbered
  split
  · rfl
  · split <;> rfl

/-- A published flow is found under the id and the version it was stored with. -/
theorem version?_publish (r : Registry) (f : Flow) :
    (r.publish f).2.version? (r.publish f).1.id (r.publish f).1.version = some (r.publish f).1 :=
  KeyedList.find?_put_self r.versions (r.numbered f)

/-- A published flow is current. -/
theorem currentVersion?_publish (r : Registry) (f : Flow) :
    (r.publish f).2.currentVersion? f.id = some (r.publish f).1.version := by
  simp [publish, currentVersion?]

/-- Other flows stay as current as they were. -/
theorem currentVersion?_publish_of_ne {r : Registry} {f : Flow} {id : String} (h : f.id ≠ id) :
    (r.publish f).2.currentVersion? id = r.currentVersion? id := by
  show Option.map Prod.snd ((r.current.put _).find? id) = _
  rw [KeyedList.find?_put, if_neg fun hc => h ((id_numbered r f).symm.trans hc)]
  rfl

/-- The stored version lies above the version that was current. -/
theorem lt_version_publish {r : Registry} {f : Flow} {v : Int}
    (h : r.currentVersion? f.id = some v) : v < (r.publish f).1.version := by
  simp only [publish, numbered, h]
  split
  · simp only [Flow.withVersion]
    omega
  · omega

end Registry

/-- A usage as a document. -/
def Usage.document (zone : String) (u : Usage) : Value :=
  .object [("flow_id", .text u.flowId), ("usage_count", .int u.count),
    ("last_used_at", (u.lastUsedAt.map fun t => Value.text (t.text zone)).getD .null)]

end UssdFlows
