import Mathlib.Data.List.Count
import UssdFlows.Locks.Visits
import UssdFlows.Proofs.Locks.Lines

/-!
# Passages

A passage is one task's way through the section of a key, in single strides: it
checks the lock out, asks to enter, goes in, goes out, and checks the lock in;
before it is inside it may be cancelled.  A crowd is the locks with the
passages of all tasks.  Between two strides of one passage the others may take
any of theirs, and any lock may be discarded.

However the strides fall, at most one passage is inside the section of a key
(`Crowd.sections_guarded`).  The danger is a lock that is discarded while
somebody is about to enter it: a later task would be given another lock, and
both could be inside.  It does not come to this, because the users of a key are
counted from the check-out on, before anybody stands in line at the lock
(`Crowd.Kept`).

The visits of a hall are passages whose strides are taken together
(`Hall.passes_move`).
-/

namespace UssdFlows

/-- Where a passage stands. -/
inductive Spot where
  /-- The lock is checked out. -/
  | arrived
  /-- The passage stands in line at the lock. -/
  | waiting
  | inside
  /-- The passage has left the lock, but not checked it in. -/
  | leaving
  | gone
  deriving DecidableEq, Repr

/-- A task's way through the section of a key. -/
structure Passage where
  key : String
  /-- The number of the lock object that was checked out. -/
  lock : Nat
  spot : Spot
  deriving DecidableEq, Repr

/-- What a passage may do next.  To be cancelled inside is to go out. -/
inductive Stride where
  | ask
  | goIn
  | goOut
  | cancel
  | checkIn
  deriving DecidableEq, Repr

/-! ## One passage -/

namespace Passage

/-- Whether a passage is between check-out and check-in. -/
def isOpen (p : Passage) : Bool := p.spot != .gone

/-- Whether a passage is a user of a key. -/
def uses (p : Passage) (key : String) : Bool := p.isOpen && p.key == key

/-- Where a visitor comes by a stride, and what this makes of the locks; nothing
if it cannot take the stride. -/
def stride? (p : Passage) (v : Visitor) (t : Locks) (s : Stride) : Option (Spot × Locks) :=
  match s, p.spot with
  | .ask, .arrived => some (.waiting, t.enter p.lock v)
  | .goIn, .waiting => if t.isInside p.lock v then some (.inside, t) else none
  | .goOut, .inside => some (.leaving, t.leave p.lock v)
  | .cancel, .arrived => some (.leaving, t)
  | .cancel, .waiting => some (.leaving, t.leave p.lock v)
  | .checkIn, .leaving => some (.gone, t.checkIn p.key)
  | _, _ => none

variable {p : Passage} {u v : Visitor} {t t' : Locks} {s : Stride} {spot : Spot}

/-- A stride leaves the locks as they are, or enters, leaves or checks in the
lock of the passage. -/
theorem stride?_cases (h : p.stride? v t s = some (spot, t')) :
    (p.spot = .arrived ∧ spot = .waiting ∧ t' = t.enter p.lock v) ∨
    (p.spot = .waiting ∧ spot = .inside ∧ t.isInside p.lock v = true ∧ t' = t) ∨
    (p.spot = .arrived ∧ spot = .leaving ∧ t' = t) ∨
    ((p.spot = .waiting ∨ p.spot = .inside) ∧ spot = .leaving ∧ t' = t.leave p.lock v) ∨
    (p.spot = .leaving ∧ spot = .gone ∧ t' = t.checkIn p.key) := by
  unfold stride? at h
  split at h
  · rename_i hspot
    cases h
    exact .inl ⟨hspot, rfl, rfl⟩
  · rename_i hspot
    split at h
    · rename_i hin
      cases h
      exact .inr (.inl ⟨hspot, rfl, hin, rfl⟩)
    · cases h
  · rename_i hspot
    cases h
    exact .inr (.inr (.inr (.inl ⟨.inr hspot, rfl, rfl⟩)))
  · rename_i hspot
    cases h
    exact .inr (.inr (.inl ⟨hspot, rfl, rfl⟩))
  · rename_i hspot
    cases h
    exact .inr (.inr (.inr (.inl ⟨.inl hspot, rfl, rfl⟩)))
  · rename_i hspot
    cases h
    exact .inr (.inr (.inr (.inr ⟨hspot, rfl, rfl⟩)))
  · cases h

/-- Who is gone takes no stride. -/
theorem isOpen_of_stride? (h : p.stride? v t s = some (spot, t')) : p.isOpen = true := by
  obtain ⟨hspot, -⟩ | ⟨hspot, -⟩ | ⟨hspot, -⟩ | ⟨hspot | hspot, -⟩ | ⟨hspot, -⟩ := stride?_cases h
  all_goals rw [isOpen, hspot]; rfl

/-- Strides give no key another lock. -/
theorem number?_of_stride? (h : p.stride? v t s = some (spot, t')) (key : String) :
    t'.number? key = t.number? key := by
  obtain ⟨-, -, rfl⟩ | ⟨-, -, -, rfl⟩ | ⟨-, -, rfl⟩ | ⟨-, -, rfl⟩ | ⟨-, -, rfl⟩ := stride?_cases h
  all_goals rfl

/-- Strides make no lock objects. -/
theorem length_of_stride? (h : p.stride? v t s = some (spot, t')) :
    t'.objects.length = t.objects.length := by
  obtain ⟨-, -, rfl⟩ | ⟨-, -, -, rfl⟩ | ⟨-, -, rfl⟩ | ⟨-, -, rfl⟩ | ⟨-, -, rfl⟩ := stride?_cases h
  · exact List.length_modify ..
  · rfl
  · rfl
  · exact List.length_modify ..
  · rfl

/-- Whoever is inside is not moved by the strides of others. -/
theorem holder_of_stride? (h : p.stride? v t s = some (spot, t')) (hlock : p.lock < t.objects.length)
    {m : Nat} (hu : (t.object m).holder = some u) (huv : u ≠ v) :
    (t'.object m).holder = some u := by
  have enter : ((t.object m).enter v).holder = some u := by
    rw [Lock.enter, if_neg (by simp [hu])]
    exact hu
  have leave : ((t.object m).leave v).holder = some u := by
    rw [Lock.leave, if_neg (by simp [hu, huv])]
    exact hu
  obtain ⟨-, -, rfl⟩ | ⟨-, -, -, rfl⟩ | ⟨-, -, rfl⟩ | ⟨-, -, rfl⟩ | ⟨-, -, rfl⟩ := stride?_cases h
  · rw [Locks.enter, Locks.object_onObject hlock]
    split
    · exact enter
    · exact hu
  · exact hu
  · exact hu
  · rw [Locks.leave, Locks.object_onObject hlock]
    split
    · exact leave
    · exact hu
  · exact hu

/-- Whoever goes in holds the lock. -/
theorem holder_of_goIn (h : p.stride? v t s = some (.inside, t')) :
    (t'.object p.lock).holder = some v := by
  obtain ⟨-, hspot, -⟩ | ⟨-, -, hin, rfl⟩ | ⟨-, hspot, -⟩ | ⟨-, hspot, -⟩ | ⟨-, hspot, -⟩ :=
    stride?_cases h
  · cases hspot
  · exact eq_of_beq hin
  · cases hspot
  · cases hspot
  · cases hspot

/-- A key has one user less exactly when a user of it is gone. -/
theorem userCount_of_stride? (h : p.stride? v t s = some (spot, t')) (hused : t.userCount p.key ≠ 0)
    (key : String) :
    t'.userCount key = t.userCount key - (if p.uses key then 1 else 0) +
      (if uses { p with spot := spot } key then 1 else 0) := by
  have hopen : p.isOpen = true := isOpen_of_stride? h
  have stays (hspot : isOpen { p with spot := spot } = true) (hcount : t'.userCount key = t.userCount key) :
      t'.userCount key = t.userCount key - (if p.uses key then 1 else 0) +
        (if uses { p with spot := spot } key then 1 else 0) := by
    rw [uses, uses, hopen, hspot, hcount]
    by_cases hkey : p.key = key
    · subst hkey
      simp
      omega
    · simp [hkey]
  obtain ⟨-, rfl, rfl⟩ | ⟨-, rfl, -, rfl⟩ | ⟨-, rfl, rfl⟩ | ⟨-, rfl, rfl⟩ | ⟨-, rfl, rfl⟩ :=
    stride?_cases h
  · exact stays rfl rfl
  · exact stays rfl rfl
  · exact stays rfl rfl
  · exact stays rfl rfl
  · rw [Locks.userCount_checkIn, uses, uses, hopen]
    by_cases hkey : p.key = key <;> simp [hkey, isOpen]

end Passage

/-! ## All passages -/

/-- The locks and the passages of all tasks, in the order in which they checked
out.  The passage at place `i` is visitor `i + 1`. -/
structure Crowd where
  locks : Locks
  passages : List Passage

/-- What may happen in a crowd. -/
inductive CrowdMove where
  | arrive (key : String)
  | stride (i : Nat) (s : Stride)
  | discard (key : String)
  deriving DecidableEq, Repr

namespace Crowd

/-- No locks and no passages. -/
def empty : Crowd := ⟨.empty, []⟩

/-- A task checks the lock of a key out. -/
def arrive (c : Crowd) (key : String) : Crowd :=
  let (lock, locks) := c.locks.checkOut key
  ⟨locks, c.passages ++ [⟨key, lock, .arrived⟩]⟩

/-- A passage takes a stride, if it can. -/
def stride (c : Crowd) (i : Nat) (s : Stride) : Crowd :=
  match c.passages[i]? with
  | none => c
  | some p =>
    match p.stride? (i + 1) c.locks s with
    | none => c
    | some (spot, locks) => ⟨locks, c.passages.set i { p with spot := spot }⟩

/-- Makes a move. -/
def make (c : Crowd) : CrowdMove → Crowd
  | .arrive key => c.arrive key
  | .stride i s => c.stride i s
  | .discard key => { c with locks := c.locks.discard key }

/-- Makes moves one after another. -/
def after (c : Crowd) (ms : List CrowdMove) : Crowd := ms.foldl make c

/-- A stride is taken, or nothing happens. -/
theorem stride_cases (c : Crowd) (i : Nat) (s : Stride) :
    c.stride i s = c ∨ ∃ p spot locks, c.passages[i]? = some p ∧
      p.stride? (i + 1) c.locks s = some (spot, locks) ∧
      c.stride i s = ⟨locks, c.passages.set i { p with spot := spot }⟩ := by
  rw [stride]
  cases hp : c.passages[i]? with
  | none => exact .inl rfl
  | some p =>
      cases hs : p.stride? (i + 1) c.locks s with
      | none => exact .inl (by simp only [hs])
      | some r => exact .inr ⟨p, r.1, r.2, rfl, hs, by simp only [hs]⟩

/-! ## What every move keeps -/

/-- A crowd in which the users of a key are the open passages, all at the lock
of the key, and whoever is inside holds it. -/
structure Kept (c : Crowd) : Prop where
  stored : ∀ key n, c.locks.number? key = some n → n < c.locks.objects.length
  placed : ∀ p ∈ c.passages, p.isOpen = true → c.locks.number? p.key = some p.lock
  counted : ∀ key, c.locks.userCount key = c.passages.countP (·.uses key)
  held : ∀ i p, c.passages[i]? = some p → p.spot = .inside →
    (c.locks.object p.lock).holder = some (i + 1)

theorem kept_empty : empty.Kept where
  stored := fun _ _ h => nomatch h
  placed := fun _ h => nomatch h
  counted := fun _ => rfl
  held := fun _ _ h => nomatch h

variable {c : Crowd} {key : String} {p : Passage} {i : Nat}

/-- The key of an open passage has users. -/
theorem Kept.userCount_ne_zero (h : c.Kept) (hp : p ∈ c.passages) (hopen : p.isOpen = true) :
    c.locks.userCount p.key ≠ 0 := by
  rw [h.counted]
  refine Nat.ne_of_gt (List.countP_pos_iff.2 ⟨p, hp, ?_⟩)
  rw [Passage.uses, hopen, beq_self_eq_true, Bool.and_self]

theorem Kept.arrive (h : c.Kept) (key : String) : (c.arrive key).Kept where
  stored := fun k n hn => by
    have hn : (c.locks.provide key).2.number? k = some n := hn
    show n < (c.locks.provide key).2.objects.length
    rw [Locks.number?_provide] at hn
    split at hn
    · cases hn
      exact Locks.provide_lt (h.stored key)
    · exact Nat.lt_of_lt_of_le (h.stored k n hn) (Locks.length_provide c.locks key)
  placed := fun p hp hopen => by
    show (c.locks.provide key).2.number? p.key = some p.lock
    rw [Locks.number?_provide]
    obtain hp | hp := List.mem_append.1 hp
    · have hplaced := h.placed p hp hopen
      split
      · rename_i hkey
        subst hkey
        rw [Locks.provide, hplaced]
      · exact hplaced
    · rw [List.mem_singleton.1 hp, if_pos rfl]
      rfl
  counted := fun k => by
    show (c.locks.checkOut key).2.userCount k = _
    rw [Locks.userCount_checkOut, h.counted]
    show _ = List.countP _ (c.passages ++ [_])
    rw [List.countP_append, List.countP_singleton]
    by_cases hk : key = k <;> simp [Passage.uses, Passage.isOpen, hk]
  held := fun i p hp hin => by
    show ((c.locks.provide key).2.object p.lock).holder = some (i + 1)
    rw [Locks.object_provide]
    have hp : (c.passages ++ [_])[i]? = some p := hp
    rw [List.getElem?_append] at hp
    split at hp
    · exact h.held i p hp hin
    · have hmem := List.mem_of_getElem? hp
      rw [List.mem_singleton.1 hmem] at hin
      cases hin

theorem Kept.stride (h : c.Kept) (i : Nat) (s : Stride) : (c.stride i s).Kept := by
  obtain hsame | ⟨p, spot, locks, hp, hs, hstride⟩ := c.stride_cases i s
  · rw [hsame]
    exact h
  have hmem : p ∈ c.passages := List.mem_of_getElem? hp
  have hopen : p.isOpen = true := Passage.isOpen_of_stride? hs
  have hplaced : c.locks.number? p.key = some p.lock := h.placed p hmem hopen
  have hlock : p.lock < c.locks.objects.length := h.stored p.key p.lock hplaced
  rw [hstride]
  exact
    { stored := fun k n hn => by
        have hn : locks.number? k = some n := hn
        show n < locks.objects.length
        rw [Passage.number?_of_stride? hs] at hn
        rw [Passage.length_of_stride? hs]
        exact h.stored k n hn
      placed := fun q hq hqopen => by
        show locks.number? q.key = some q.lock
        rw [Passage.number?_of_stride? hs]
        obtain hq | rfl := List.mem_or_eq_of_mem_set hq
        · exact h.placed q hq hqopen
        · exact hplaced
      counted := fun k => by
        obtain ⟨hi, hget⟩ := List.getElem?_eq_some_iff.1 hp
        have hused := h.userCount_ne_zero hmem hopen
        show locks.userCount k = List.countP _ (c.passages.set i _)
        rw [List.countP_set hi, hget, ← h.counted]
        exact Passage.userCount_of_stride? hs hused k
      held := fun j q hq hin => by
        have hq : (c.passages.set i _)[j]? = some q := hq
        show (locks.object q.lock).holder = some (j + 1)
        by_cases hij : i = j
        · -- the passage that takes the stride
          subst hij
          rw [List.getElem?_set_self (List.getElem?_eq_some_iff.1 hp).1] at hq
          obtain rfl := Option.some.inj hq
          have hin : spot = .inside := hin
          subst hin
          show (locks.object p.lock).holder = some (i + 1)
          exact Passage.holder_of_goIn hs
        · rw [List.getElem?_set_ne hij] at hq
          have hne : j + 1 ≠ i + 1 := fun hc => hij (Nat.succ.inj hc).symm
          exact Passage.holder_of_stride? hs hlock (h.held j q hq hin) hne }

/-- A lock that is discarded has no users, so nobody is at it. -/
theorem Kept.discard (h : c.Kept) (key : String) :
    Kept { c with locks := c.locks.discard key } where
  stored := fun k n hn => by
    have hlength : (c.locks.discard key).objects.length = c.locks.objects.length := by
      rw [Locks.discard]
      split <;> rfl
    show n < (c.locks.discard key).objects.length
    rw [hlength]
    exact h.stored k n (Locks.number?_of_discard hn)
  placed := fun p hp hopen => by
    show (c.locks.discard key).number? p.key = some p.lock
    by_cases hkey : p.key = key
    · subst hkey
      rw [Locks.discard_of_used (h.userCount_ne_zero hp hopen)]
      exact h.placed p hp hopen
    · rw [Locks.number?_discard_of_ne c.locks hkey]
      exact h.placed p hp hopen
  counted := fun k => by
    rw [← h.counted, Locks.discard]
    split <;> rfl
  held := fun i p hp hin => by
    rw [Locks.discard]
    split <;> exact h.held i p hp hin

theorem Kept.make (h : c.Kept) (m : CrowdMove) : (c.make m).Kept := by
  cases m with
  | arrive key => exact h.arrive key
  | stride i s => exact h.stride i s
  | discard key => exact h.discard key

theorem Kept.after (h : c.Kept) (ms : List CrowdMove) : (c.after ms).Kept := by
  induction ms generalizing c with
  | nil => exact h
  | cons m ms ih => exact ih (h.make m)

/-! ## The section of a key -/

/-- The section of a key is guarded: one passage at a time is inside, all open
ones meet at the lock in the table, they are counted, and a discard takes effect
exactly when there are none. -/
structure Guarded (c : Crowd) (key : String) : Prop where
  exclusive : ∀ (i j : Nat) (p q : Passage), c.passages[i]? = some p → c.passages[j]? = some q →
    p.key = key → q.key = key → p.spot = .inside → q.spot = .inside → i = j
  shared : ∀ p ∈ c.passages, p.key = key → p.isOpen = true → c.locks.number? key = some p.lock
  counted : c.locks.userCount key = c.passages.countP fun p => p.isOpen && p.key == key
  kept : (∃ p ∈ c.passages, p.key = key ∧ p.isOpen = true) → c.locks.discard key = c.locks
  forgotten : (∀ p ∈ c.passages, p.key = key → p.isOpen = false) →
    key ∉ (c.locks.discard key).keys

theorem Kept.guarded (h : c.Kept) (key : String) : c.Guarded key where
  exclusive := fun i j p q hi hj hp hq hpin hqin => by
    have hpopen : p.isOpen = true := by rw [Passage.isOpen, hpin]; rfl
    have hqopen : q.isOpen = true := by rw [Passage.isOpen, hqin]; rfl
    have hplock := h.placed p (List.mem_of_getElem? hi) hpopen
    have hqlock := h.placed q (List.mem_of_getElem? hj) hqopen
    rw [hp] at hplock
    rw [hq, hplock] at hqlock
    have hlock : p.lock = q.lock := Option.some.inj hqlock
    have hpheld := h.held i p hi hpin
    have hqheld := h.held j q hj hqin
    rw [← hlock, hpheld] at hqheld
    exact Nat.succ.inj (Option.some.inj hqheld)
  shared := fun p hp hkey hopen => hkey ▸ h.placed p hp hopen
  counted := h.counted key
  kept := fun ⟨p, hp, hkey, hopen⟩ => Locks.discard_of_used (hkey ▸ h.userCount_ne_zero hp hopen)
  forgotten := fun hnone => by
    have hcount : c.locks.userCount key = 0 := by
      rw [h.counted, List.countP_eq_zero]
      intro p hp huse
      rw [Passage.uses, Bool.and_eq_true, beq_iff_eq] at huse
      rw [hnone p hp huse.2] at huse
      cases huse.1
    exact KeyedList.find?_eq_none_iff.1 (Option.map_eq_none_iff.1 (Locks.number?_discard hcount))

/-- **Sections are guarded**, however many tasks take their strides in whatever
order, and whatever is discarded meanwhile. -/
theorem sections_guarded (ms : List CrowdMove) (key : String) :
    (empty.after ms).Guarded key :=
  (kept_empty.after ms).guarded key

/-- A lock that is discarded while somebody is about to ask for it is kept for
whoever comes next. -/
example : ((empty.after [.arrive "k", .stride 0 .ask, .stride 0 .goIn, .arrive "k",
    .stride 0 .goOut, .stride 0 .checkIn, .discard "k", .arrive "k", .stride 1 .ask,
    .stride 2 .ask, .stride 2 .goIn, .stride 1 .goIn]).passages.map fun p => (p.lock, p.spot)) =
    [(0, .gone), (0, .inside), (0, .waiting)] := by decide

/-! ## Moves in a row -/

/-- A crowd can come to another by moves. -/
def Passes (c c' : Crowd) : Prop := ∃ ms, c' = c.after ms

theorem Passes.refl (c : Crowd) : c.Passes c := ⟨[], rfl⟩

theorem Passes.trans {c c' c'' : Crowd} (h : c.Passes c') (h' : c'.Passes c'') : c.Passes c'' := by
  obtain ⟨ms, rfl⟩ := h
  obtain ⟨ms', rfl⟩ := h'
  exact ⟨ms ++ ms', List.foldl_append.symm⟩

theorem passes_make (c : Crowd) (m : CrowdMove) : c.Passes (c.make m) := ⟨[m], rfl⟩

theorem Passes.kept {c c' : Crowd} (h : c.Passes c') (hc : c.Kept) : c'.Kept := by
  obtain ⟨ms, rfl⟩ := h
  exact hc.after ms

/-- A stride that a passage can take is a move. -/
theorem passes_stride {c : Crowd} {i : Nat} {p : Passage} {s : Stride} {spot : Spot} {t : Locks}
    (hp : c.passages[i]? = some p) (hs : p.stride? (i + 1) c.locks s = some (spot, t)) :
    c.Passes ⟨t, c.passages.set i { p with spot := spot }⟩ := by
  have hmake : c.make (.stride i s) = ⟨t, c.passages.set i { p with spot := spot }⟩ := by
    show c.stride i s = _
    simp only [stride, hp, hs]
  exact hmake ▸ c.passes_make (.stride i s)

/-- A passage that stands in line can go, from inside or not. -/
theorem passes_withdraw {c : Crowd} {i : Nat} {p : Passage} (hp : c.passages[i]? = some p)
    (hspot : p.spot = .waiting ∨ p.spot = .inside) :
    c.Passes ⟨(c.locks.leave p.lock (i + 1)).checkIn p.key,
      c.passages.set i { p with spot := .gone }⟩ := by
  have leaves : c.Passes ⟨c.locks.leave p.lock (i + 1),
      c.passages.set i { p with spot := .leaving }⟩ := by
    obtain hspot | hspot := hspot
    · exact passes_stride (s := .cancel) hp (by simp only [Passage.stride?, hspot])
    · exact passes_stride (s := .goOut) hp (by simp only [Passage.stride?, hspot])
  have hi : i < c.passages.length := (List.getElem?_eq_some_iff.1 hp).1
  have checksIn := passes_stride (c := ⟨c.locks.leave p.lock (i + 1),
      c.passages.set i { p with spot := .leaving }⟩) (s := .checkIn)
    (List.getElem?_set_self hi) rfl
  rw [List.set_set] at checksIn
  exact leaves.trans checksIn

end Crowd

/-! ## Visits are passages -/

/-- Where the passage of a visit stands. -/
def VisitState.spot : VisitState → Spot
  | waiting => .waiting
  | inside => .inside
  | left => .gone
  | cancelled => .gone

/-- The passage of a visit. -/
def Visit.passage (v : Visit) : Passage := ⟨v.key, v.lock, v.state.spot⟩

/-- An open visit stands in line. -/
theorem Visit.spot_of_isOpen {v : Visit} (h : v.isOpen = true) :
    v.passage.spot = .waiting ∨ v.passage.spot = .inside := by
  rw [Visit.isOpen, Bool.or_eq_true, beq_iff_eq, beq_iff_eq] at h
  obtain h | h := h
  · exact .inl (by rw [passage, h]; rfl)
  · exact .inr (by rw [passage, h]; rfl)

namespace Hall

/-- The passages of all visits. -/
def crowd (h : Hall) : Crowd := ⟨h.locks, h.visits.map Visit.passage⟩

/-- Visits whose visitors are numbered, the first one as told. -/
def Numbered : (first : Nat) → List Visit → Prop
  | _, [] => True
  | first, v :: rest => v.visitor = first ∧ Numbered (first + 1) rest

theorem Numbered.append_singleton {v : Visit} {n : Nat} {visits : List Visit}
    (h : Numbered n visits) (hv : v.visitor = n + visits.length) :
    Numbered n (visits ++ [v]) := by
  induction visits generalizing n with
  | nil => exact ⟨hv, trivial⟩
  | cons w rest ih =>
      refine ⟨h.1, ih h.2 ?_⟩
      rw [hv, List.length_cons, Nat.add_comm rest.length, Nat.add_assoc]

/-- Only the numbers of the visitors count. -/
theorem Numbered.map {change : Visit → Visit} (hchange : ∀ v, (change v).visitor = v.visitor)
    {n : Nat} {visits : List Visit} (h : Numbered n visits) :
    Numbered n (visits.map change) := by
  induction visits generalizing n with
  | nil => trivial
  | cons v rest ih => exact ⟨(hchange v).trans h.1, ih h.2⟩

variable {t : Locks} {v w : Visit} {done : List Passage} {rest : List Visit}

/-- A passage after others is at its place. -/
theorem getElem?_done (done : List Passage) (p : Passage) (rest : List Passage) :
    (done ++ p :: rest)[done.length]? = some p := by
  rw [List.getElem?_append_right (Nat.le_refl _), Nat.sub_self]
  rfl

theorem set_done (done : List Passage) (p q : Passage) (rest : List Passage) :
    (done ++ p :: rest).set done.length q = done ++ q :: rest := by
  rw [List.set_append_right _ _ (Nat.le_refl _), Nat.sub_self]
  rfl

/-- To withdraw is to leave the lock and to check it in. -/
theorem passes_withdraw (hv : v.isOpen = true) (hnumber : v.visitor = done.length + 1)
    (hw : w.passage = { v.passage with spot := .gone }) (t : Locks) (rest : List Passage) :
    Crowd.Passes ⟨t, done ++ v.passage :: rest⟩ ⟨withdraw v t, done ++ w.passage :: rest⟩ := by
  have h := Crowd.passes_withdraw (c := ⟨t, done ++ v.passage :: rest⟩)
    (getElem?_done ..) (Visit.spot_of_isOpen hv)
  rw [set_done, ← hw] at h
  rw [withdraw, hnumber]
  exact h

/-- Whether a visit is cancelled with the task of a name. -/
def isHit (name : String) (v : Visit) : Bool := v.name = name && v.isOpen

/-- A visit after the task of a name is cancelled. -/
def cancelled (name : String) (v : Visit) : Visit :=
  if v.name = name then if v.isOpen then { v with state := .cancelled } else v else v

theorem cancelled_of_isHit {name : String} (h : isHit name v = true) :
    cancelled name v = { v with state := .cancelled } := by
  rw [isHit, Bool.and_eq_true, decide_eq_true_eq] at h
  rw [cancelled, if_pos h.1, if_pos h.2]

theorem cancelled_of_not_isHit {name : String} (h : ¬ isHit name v = true) :
    cancelled name v = v := by
  rw [isHit, Bool.and_eq_true, decide_eq_true_eq] at h
  rw [cancelled]
  split
  · rename_i hname
    exact if_neg fun hopen => h ⟨hname, hopen⟩
  · rfl

theorem visitor_cancelled (name : String) (v : Visit) : (cancelled name v).visitor = v.visitor := by
  by_cases h : isHit name v = true
  · rw [cancelled_of_isHit h]
  · rw [cancelled_of_not_isHit h]

/-- Cancelling visits is withdrawing those that are open, one after another. -/
theorem passes_cancelled (name : String) (visits : List Visit) (done : List Passage) (t : Locks)
    (hnumbered : Numbered (done.length + 1) visits) :
    Crowd.Passes ⟨t, done ++ visits.map Visit.passage⟩
      ⟨(visits.filter (isHit name)).foldl (fun t v => withdraw v t) t,
        done ++ (visits.map (cancelled name)).map Visit.passage⟩ := by
  induction visits generalizing done t with
  | nil => exact .refl _
  | cons v rest ih =>
      have later (p : Passage) (t : Locks) := ih (done ++ [p]) t (by
        rw [List.length_append]
        exact hnumbered.2)
      simp only [List.append_assoc] at later
      rw [List.map_cons, List.map_cons, List.map_cons]
      by_cases hhit : isHit name v = true
      · rw [cancelled_of_isHit hhit, List.filter_cons_of_pos hhit, List.foldl_cons]
        have hopen : v.isOpen = true := (Bool.and_eq_true_iff.1 hhit).2
        exact (passes_withdraw hopen hnumbered.1 rfl t _).trans (later _ _)
      · rw [cancelled_of_not_isHit hhit, List.filter_cons_of_neg hhit]
        exact later v.passage t

/-- A visit whose visitor goes in, if it may. -/
def admitted (t : Locks) (v : Visit) : Visit :=
  if v.state == .waiting && t.isInside v.lock v.visitor then { v with state := .inside } else v

theorem settleVisit_eq (t : Locks) (v : Visit) :
    settleVisit t v =
      if (admitted t v).state == .inside && (admitted t v).isLeaving then
        ({ admitted t v with state := .left }, withdraw (admitted t v) t)
      else (admitted t v, t) := rfl

theorem visitor_admitted (t : Locks) (v : Visit) : (admitted t v).visitor = v.visitor := by
  rw [admitted]
  split <;> rfl

theorem visitor_settleVisit (t : Locks) (v : Visit) : (settleVisit t v).1.visitor = v.visitor := by
  rw [settleVisit_eq]
  split <;> exact visitor_admitted t v

theorem passes_admitted (t : Locks) (hnumber : v.visitor = done.length + 1) (rest : List Passage) :
    Crowd.Passes ⟨t, done ++ v.passage :: rest⟩
      ⟨t, done ++ (admitted t v).passage :: rest⟩ := by
  rw [admitted]
  split
  · rename_i hin
    rw [Bool.and_eq_true, beq_iff_eq, hnumber] at hin
    have hspot : v.passage.spot = .waiting := by rw [Visit.passage, hin.1]; rfl
    have hin' : t.isInside v.passage.lock (done.length + 1) = true := hin.2
    have hstride : v.passage.stride? (done.length + 1) t .goIn = some (.inside, t) := by
      simp only [Passage.stride?, hspot, hin', if_true]
    have h := Crowd.passes_stride (c := ⟨t, done ++ v.passage :: rest⟩) (getElem?_done ..) hstride
    rw [set_done] at h
    exact h
  · exact .refl _

/-- To settle is to go in, to go out, or both. -/
theorem passes_settleVisit (t : Locks) (hnumber : v.visitor = done.length + 1)
    (rest : List Passage) :
    Crowd.Passes ⟨t, done ++ v.passage :: rest⟩
      ⟨(settleVisit t v).2, done ++ (settleVisit t v).1.passage :: rest⟩ := by
  refine (passes_admitted t hnumber rest).trans ?_
  rw [settleVisit_eq]
  split
  · rename_i hgo
    have hopen : (admitted t v).isOpen = true := by
      rw [Bool.and_eq_true] at hgo
      rw [Visit.isOpen, hgo.1, Bool.or_true]
    exact passes_withdraw hopen ((visitor_admitted t v).trans hnumber) rfl t rest
  · exact .refl _

theorem numbered_settleEach {n : Nat} {visits : List Visit} (h : Numbered n visits) (t : Locks) :
    Numbered n (settleEach visits t).1 := by
  induction visits generalizing n t with
  | nil => trivial
  | cons v rest ih => exact ⟨(visitor_settleVisit t v).trans h.1, ih h.2 _⟩

theorem passes_settleEach (visits : List Visit) (done : List Passage) (t : Locks)
    (hnumbered : Numbered (done.length + 1) visits) :
    Crowd.Passes ⟨t, done ++ visits.map Visit.passage⟩
      ⟨(settleEach visits t).2, done ++ (settleEach visits t).1.map Visit.passage⟩ := by
  induction visits generalizing done t with
  | nil => exact .refl _
  | cons v rest ih =>
      have first := passes_settleVisit t hnumbered.1 (rest.map Visit.passage)
      have later := ih (done ++ [(settleVisit t v).1.passage]) (settleVisit t v).2 (by
        rw [List.length_append]
        exact hnumbered.2)
      simp only [List.append_assoc] at later
      exact first.trans later

variable {h : Hall}

/-- One hall comes to another by moves of passages, and keeps its visitors
numbered. -/
def Passes (h h' : Hall) : Prop := h.crowd.Passes h'.crowd ∧ Numbered 1 h'.visits

theorem passes_settle (rounds : Nat) (hnumbered : Numbered 1 h.visits) :
    h.Passes (h.settle rounds) := by
  induction rounds generalizing h with
  | zero => exact ⟨.refl _, hnumbered⟩
  | succ rounds ih =>
      have once := passes_settleEach h.visits [] h.locks hnumbered
      have later := ih (h := ⟨(settleEach h.visits h.locks).2, (settleEach h.visits h.locks).1⟩)
        (numbered_settleEach hnumbered h.locks)
      exact ⟨once.trans later.1, later.2⟩

/-- To hold is to arrive and to ask. -/
theorem passes_hold (name key : String) (hnumbered : Numbered 1 h.visits) :
    h.Passes (h.hold name key) := by
  refine ⟨?_, hnumbered.append_singleton (Nat.add_comm _ _)⟩
  have arrives := h.crowd.passes_make (.arrive key)
  have hplace : h.crowd.passages.length = h.visits.length := List.length_map _
  have asks := Crowd.passes_stride (c := h.crowd.arrive key) (i := h.crowd.passages.length)
    (s := .ask) (getElem?_done ..) rfl
  have hset : (h.crowd.arrive key).passages.set h.crowd.passages.length
      ⟨key, (h.locks.checkOut key).1, .waiting⟩ = (h.hold name key).crowd.passages := by
    show List.set (h.crowd.passages ++ [_]) _ _ = (h.visits ++ [_]).map Visit.passage
    rw [set_done, List.map_append]
    rfl
  refine arrives.trans ?_
  show Crowd.Passes _ ⟨(h.hold name key).locks, (h.hold name key).crowd.passages⟩
  rw [← hset]
  rw [hplace] at asks ⊢
  exact asks

theorem passes_react (m : HallMove) (hnumbered : Numbered 1 h.visits) : h.Passes (h.react m) := by
  cases m with
  | hold name key => exact passes_hold name key hnumbered
  | release name =>
      -- that a visit is to leave does not show in its passage
      have hcrowd : (h.react (.release name)).crowd = h.crowd := by
        rw [crowd, crowd]
        congr 1
        rw [react, onVisit, List.map_map]
        refine List.map_congr_left fun v _ => ?_
        rw [Function.comp_apply]
        split <;> rfl
      refine ⟨hcrowd ▸ .refl _, hnumbered.map fun v => ?_⟩
      split <;> rfl
  | cancel name =>
      exact ⟨passes_cancelled name h.visits [] h.locks hnumbered,
        hnumbered.map (visitor_cancelled name)⟩
  | discard key => exact ⟨h.crowd.passes_make (.discard key), hnumbered⟩

/-- **Halls are crowds**: a move of a hall is made of moves of passages. -/
theorem passes_move (m : HallMove) (hnumbered : Numbered 1 h.visits) : h.Passes (h.move m) := by
  have reacts := passes_react m hnumbered
  have settles := passes_settle ((h.react m).visits.length + 1) reacts.2
  exact ⟨reacts.1.trans settles.1, settles.2⟩

theorem passes_moves (ms : List HallMove) (hnumbered : Numbered 1 h.visits) :
    h.crowd.Passes (ms.foldl move h).crowd := by
  induction ms generalizing h with
  | nil => exact .refl _
  | cons m ms ih =>
      have once := passes_move m hnumbered
      exact once.1.trans (ih once.2)

/-- The sections of a hall are guarded, whatever its moves were. -/
theorem guarded_moves (ms : List HallMove) (key : String) :
    (ms.foldl move empty).crowd.Guarded key :=
  ((passes_moves (h := empty) ms trivial).kept Crowd.kept_empty).guarded key

end Hall

end UssdFlows
