import Mathlib.Data.List.Nodup
import UssdFlows.Locks

/-!
# Lines at locks

The visitors of a key stand in line at its lock: the one who is inside comes
first, and those who wait follow in the order in which they came (`Locks.line`).
Whoever joins goes to the end of the line (`line_join`), whoever quits is taken
out of it (`line_quit`), and forgetting a lock changes no line (`line_discard`).

This needs locks that are *neat* (`Locks.Neat`): nobody waits at a lock that
nobody is inside of, nobody stands twice in a line, different keys have
different lock objects, and as many users are counted as stand in line.  All
three keep locks neat, and nothing that one visitor does moves another one or
its lock (`Locks.Spares`).
-/

namespace UssdFlows

/-! ## One lock -/

namespace Lock

variable {l : Lock} {v : Visitor}

/-- Who is inside, followed by those who wait. -/
def line (l : Lock) : List Visitor := l.holder.toList ++ l.queue

/-- Nobody waits for nobody, and nobody stands in line twice. -/
structure Neat (l : Lock) : Prop where
  idle : l.holder = none → l.queue = []
  nodup : l.line.Nodup

theorem neat_fresh : fresh.Neat := ⟨fun _ => rfl, List.nodup_nil⟩

namespace Neat

/-- The first in line is inside. -/
theorem head?_line (h : l.Neat) : l.line.head? = l.holder := by
  obtain ⟨holder, queue⟩ := l
  cases holder with
  | some u => rfl
  | none =>
      have hq : queue = [] := h.idle rfl
      subst hq
      rfl

theorem line_enter (h : l.Neat) (v : Visitor) : (l.enter v).line = l.line ++ [v] := by
  obtain ⟨holder, queue⟩ := l
  cases holder with
  | some u => simp [enter, line]
  | none =>
      have hq : queue = [] := h.idle rfl
      subst hq
      simp [enter, line]

theorem line_leave (h : l.Neat) (v : Visitor) : (l.leave v).line = l.line.erase v := by
  obtain ⟨holder, queue⟩ := l
  cases holder with
  | none =>
      have hq : queue = [] := h.idle rfl
      subst hq
      simp [leave, line]
  | some u =>
      have hnodup : (u :: queue).Nodup := h.nodup
      by_cases hu : u = v
      · subst hu
        cases queue <;> simp [leave, handOver, line]
      · have hsome : ¬ some u = some v := fun hc => hu (Option.some.inj hc)
        have hbeq : ¬ (u == v) = true := fun hc => hu (eq_of_beq hc)
        have hqueue : queue.erase v = queue.filter (· ≠ v) := by
          rw [(List.nodup_cons.1 hnodup).2.erase_eq_filter v]
          exact List.filter_congr fun x _ => by by_cases hx : x = v <;> simp [hx]
        rw [leave, if_neg hsome]
        show u :: queue.filter (· ≠ v) = (u :: queue).erase v
        rw [List.erase_cons, if_neg hbeq, hqueue]

protected theorem enter (h : l.Neat) (hv : v ∉ l.line) : (l.enter v).Neat where
  idle := by
    rw [Lock.enter]
    split
    · exact nofun
    · rename_i hno
      intro hnone
      have hholder : l.holder = none := hnone
      simp [hholder, h.idle hholder] at hno
  nodup := by
    rw [h.line_enter]
    refine List.nodup_append.2 ⟨h.nodup, List.nodup_singleton v, fun a ha b hb => ?_⟩
    rw [List.mem_singleton.1 hb]
    exact fun hav => hv (hav ▸ ha)

protected theorem leave (h : l.Neat) (v : Visitor) : (l.leave v).Neat where
  idle := by
    rw [Lock.leave]
    split
    · rw [handOver]
      split
      · rename_i hq
        exact fun _ => hq
      · exact nofun
    · intro hnone
      have hq : l.queue = [] := h.idle hnone
      simp [hq]
  nodup := by
    rw [h.line_leave]
    exact h.nodup.sublist List.erase_sublist

end Neat

end Lock

namespace Locks

variable {t : Locks} {key k : String} {n : Nat} {u v : Visitor}

/-! ## Lines and numbers -/

/-- The visitors of a key: who is inside, followed by those who wait. -/
def line (t : Locks) (key : String) : List Visitor :=
  match t.number? key with
  | some n => (t.object n).line
  | none => []

/-- A visitor checks a lock out and asks to enter. -/
def join (t : Locks) (key : String) (v : Visitor) : Nat × Locks :=
  let (n, t) := t.checkOut key
  (n, t.enter n v)

/-- A visitor leaves a lock and checks it in. -/
def quit (t : Locks) (key : String) (n : Nat) (v : Visitor) : Locks := (t.leave n v).checkIn key

/-- Locks whose lines are in order. -/
structure Neat (t : Locks) : Prop where
  objects : ∀ n, (t.object n).Neat
  stored : ∀ key n, t.number? key = some n → n < t.objects.length
  distinct : ∀ key k n, t.number? key = some n → t.number? k = some n → key = k
  counted : ∀ key, t.userCount key = (t.line key).length

theorem neat_empty : empty.Neat where
  objects := fun _ => Lock.neat_fresh
  stored := fun _ _ h => nomatch h
  distinct := fun _ _ _ h => nomatch h
  counted := fun _ => rfl

/-- Neat locks that nobody uses. -/
structure Idle (t : Locks) : Prop where
  neat : t.Neat
  line : ∀ key, t.line key = []

theorem idle_empty : empty.Idle := ⟨neat_empty, fun _ => rfl⟩

theorem line_of_number? (h : t.number? key = some n) : t.line key = (t.object n).line := by
  rw [line, h]

theorem line_of_none (h : t.number? key = none) : t.line key = [] := by
  rw [line, h]

/-- Who stands in line stands at a lock. -/
theorem number?_of_mem (h : v ∈ t.line key) : ∃ n, t.number? key = some n := by
  cases hn : t.number? key with
  | some n => exact ⟨n, rfl⟩
  | none =>
      rw [line_of_none hn] at h
      exact absurd h List.not_mem_nil

namespace Neat

theorem nodup (h : t.Neat) (key : String) : (t.line key).Nodup := by
  rw [line]
  split
  · exact (h.objects _).nodup
  · exact List.nodup_nil

/-- Whoever is inside a section comes first in its line. -/
theorem isInside_iff (h : t.Neat) (hn : t.number? key = some n) :
    t.isInside n v = true ↔ (t.line key).head? = some v := by
  rw [isInside, beq_iff_eq, line_of_number? hn, (h.objects n).head?_line]

end Neat

theorem number?_provide (t : Locks) (key k : String) :
    (t.provide key).2.number? k = if k = key then some (t.provide key).1 else t.number? k := by
  rw [provide]
  cases hn : t.number? key with
  | some n =>
      by_cases hk : k = key
      · subst hk
        rw [if_pos rfl]
        exact hn
      · rw [if_neg hk]
  | none =>
      show Option.map Prod.snd ((t.table.put (key, t.objects.length)).find? k) = _
      rw [KeyedList.find?_put]
      by_cases hk : k = key
      · subst hk
        rw [if_pos rfl, if_pos rfl]
        rfl
      · rw [if_neg (Ne.symm hk), if_neg hk]
        rfl

/-- A lock that is made anew is like one that was never used. -/
theorem object_provide (t : Locks) (key : String) (m : Nat) :
    (t.provide key).2.object m = t.object m := by
  rw [provide]
  cases hn : t.number? key with
  | some n => rfl
  | none =>
      show (t.objects ++ [Lock.fresh]).getD m .fresh = t.objects.getD m .fresh
      rw [List.getD_eq_getElem?_getD, List.getD_eq_getElem?_getD, List.getElem?_append]
      by_cases hm : m < t.objects.length
      · rw [if_pos hm]
      · rw [if_neg hm, List.getElem?_eq_none (Nat.not_lt.1 hm)]
        cases hd : m - t.objects.length <;> simp

theorem length_provide (t : Locks) (key : String) :
    t.objects.length ≤ (t.provide key).2.objects.length := by
  rw [provide]
  split
  · exact Nat.le_refl _
  · simp

/-- The lock that a key is given is there, if the one that it has is. -/
theorem provide_lt (h : ∀ n, t.number? key = some n → n < t.objects.length) :
    (t.provide key).1 < (t.provide key).2.objects.length := by
  rw [provide]
  split
  · rename_i hn
    exact h _ hn
  · simp

theorem object_onObject (h : n < t.objects.length) (change : Lock → Lock) (m : Nat) :
    (t.onObject n change).object m = if m = n then change (t.object m) else t.object m := by
  show (t.objects.modify n change).getD m .fresh = _
  rw [List.getD_eq_getElem?_getD, List.getElem?_modify, object, List.getD_eq_getElem?_getD]
  by_cases hm : m = n
  · subst hm
    rw [if_pos rfl, List.getElem?_eq_getElem h]
    simp
  · have hnm : ¬ n = m := fun hc => hm hc.symm
    rw [if_neg hm]
    cases t.objects[m]? <;> simp [hnm]

/-! ## Joining a line -/

theorem number?_join (t : Locks) (key : String) (v : Visitor) (k : String) :
    (t.join key v).2.number? k = if k = key then some (t.join key v).1 else t.number? k :=
  number?_provide t key k

/-- Keys with one lock are one key, also after a lock was made. -/
theorem Neat.distinct_provide (h : t.Neat) (hk : k ≠ key) :
    t.number? k ≠ some (t.provide key).1 := by
  intro hc
  rw [provide] at hc
  split at hc
  · rename_i hn
    exact hk (h.distinct k key _ hc hn)
  · exact absurd (h.stored k _ hc) (Nat.lt_irrefl _)

theorem line_provide (t : Locks) (key k : String) :
    (match (t.provide key).2.number? k with
      | some n => (t.object n).line
      | none => []) = t.line k := by
  by_cases hk : k = key
  · subst hk
    rw [number?_provide, if_pos rfl, provide]
    cases hn : t.number? k with
    | some n => exact (line_of_number? hn).symm
    | none =>
        -- the lock is made anew
        show (t.objects.getD t.objects.length .fresh).line = t.line k
        rw [line_of_none hn, List.getD_eq_getElem?_getD, List.getElem?_eq_none (Nat.le_refl _)]
        rfl
  · rw [number?_provide, if_neg hk]
    rfl

theorem object_join (h : t.Neat) (key : String) (v : Visitor) (m : Nat) :
    (t.join key v).2.object m =
      if m = (t.join key v).1 then (t.object m).enter v else t.object m := by
  have hlt : (t.checkOut key).1 < (t.checkOut key).2.objects.length := provide_lt (h.stored key)
  show ((t.checkOut key).2.onObject (t.checkOut key).1 (·.enter v)).object m = _
  rw [object_onObject hlt, show (t.checkOut key).2.object m = t.object m from object_provide t key m]
  rfl

/-- Whoever joins goes to the end of the line. -/
theorem line_join (h : t.Neat) (key : String) (v : Visitor) (k : String) :
    (t.join key v).2.line k = if k = key then t.line key ++ [v] else t.line k := by
  have hline := line_provide t key k
  rw [number?_provide] at hline
  rw [line, number?_join]
  by_cases hk : k = key
  · subst hk
    rw [if_pos rfl] at hline
    rw [if_pos rfl, if_pos rfl]
    show ((t.join k v).2.object (t.join k v).1).line = _
    rw [object_join h, if_pos rfl, (h.objects _).line_enter, ← hline]
    rfl
  · rw [if_neg hk, if_neg hk, line]
    cases hn : t.number? k with
    | none => rfl
    | some m =>
        have hm : m ≠ (t.join key v).1 := by
          rintro rfl
          exact h.distinct_provide hk hn
        show ((t.join key v).2.object m).line = _
        rw [object_join h, if_neg hm]

theorem Neat.join (h : t.Neat) (hv : v ∉ t.line key) : (t.join key v).2.Neat where
  objects := fun m => by
    rw [object_join h]
    split
    · rename_i hm
      refine (h.objects m).enter ?_
      have hline := line_provide t key key
      rw [number?_provide, if_pos rfl] at hline
      have hobject : (t.object m).line = t.line key := by
        rw [hm]
        exact hline
      rw [hobject]
      exact hv
    · exact h.objects m
  stored := fun k n hn => by
    have hlength : (t.join key v).2.objects.length = (t.provide key).2.objects.length :=
      List.length_modify ..
    rw [hlength]
    rw [number?_join] at hn
    split at hn
    · cases hn
      exact provide_lt (h.stored key)
    · exact Nat.lt_of_lt_of_le (h.stored k n hn) (length_provide t key)
  distinct := fun j k n hj hk => by
    rw [number?_join] at hj hk
    split at hj <;> split at hk
    · rename_i hj' hk'
      exact hj'.trans hk'.symm
    · rename_i hk'
      exact absurd (hk.trans hj.symm) (h.distinct_provide hk')
    · rename_i hj' _
      exact absurd (hj.trans hk.symm) (h.distinct_provide hj')
    · exact h.distinct j k n hj hk
  counted := fun k => by
    rw [line_join h]
    show (t.checkOut key).2.userCount k = _
    rw [userCount_checkOut, h.counted]
    by_cases hk : k = key
    · subst hk
      rw [if_pos rfl, if_pos rfl, List.length_append, List.length_singleton]
    · rw [if_neg hk, if_neg (Ne.symm hk)]

/-! ## Quitting a line -/

theorem number?_quit (t : Locks) (key : String) (n : Nat) (v : Visitor) (k : String) :
    (t.quit key n v).number? k = t.number? k := rfl

theorem object_quit (h : t.Neat) (hn : t.number? key = some n) (v : Visitor) (m : Nat) :
    (t.quit key n v).object m = if m = n then (t.object m).leave v else t.object m :=
  object_onObject (h.stored key n hn) (·.leave v) m

/-- Whoever quits is taken out of the line. -/
theorem line_quit (h : t.Neat) (hn : t.number? key = some n) (v : Visitor) (k : String) :
    (t.quit key n v).line k = if k = key then (t.line key).erase v else t.line k := by
  rw [line, number?_quit, line_of_number? hn]
  by_cases hk : k = key
  · subst hk
    rw [if_pos rfl, hn]
    show ((t.quit k n v).object n).line = _
    rw [object_quit h hn, if_pos rfl, (h.objects n).line_leave]
  · rw [if_neg hk, line]
    cases hm : t.number? k with
    | none => rfl
    | some m =>
        have hne : m ≠ n := by
          rintro rfl
          exact hk (h.distinct k key m hm hn)
        show ((t.quit key n v).object m).line = _
        rw [object_quit h hn, if_neg hne]

theorem Neat.quit (h : t.Neat) (hn : t.number? key = some n) (hv : v ∈ t.line key) :
    (t.quit key n v).Neat where
  objects := fun m => by
    rw [object_quit h hn]
    split
    · exact (h.objects m).leave v
    · exact h.objects m
  stored := fun k m hm => by
    have hlength : (t.quit key n v).objects.length = t.objects.length := List.length_modify ..
    rw [hlength]
    exact h.stored k m hm
  distinct := h.distinct
  counted := fun k => by
    rw [line_quit h hn]
    show ((t.leave n v).checkIn key).userCount k = _
    rw [userCount_checkIn, show (t.leave n v).userCount k = t.userCount k from rfl, h.counted]
    by_cases hk : k = key
    · subst hk
      rw [if_pos rfl, if_pos rfl, List.length_erase_of_mem hv]
    · rw [if_neg hk, if_neg (Ne.symm hk)]

/-! ## Forgetting a lock -/

theorem number?_discard_of_ne (t : Locks) (hk : k ≠ key) :
    (t.discard key).number? k = t.number? k := by
  rw [discard]
  split
  · show Option.map Prod.snd ((t.table.erase key).find? k) = _
    rw [KeyedList.find?_erase, if_neg hk]
    rfl
  · rfl

theorem number?_discard_of_mem (h : t.Neat) (hv : v ∈ t.line k) :
    (t.discard key).number? k = t.number? k := by
  by_cases hk : k = key
  · subst hk
    have hused : t.userCount k ≠ 0 := by
      rw [h.counted]
      exact Nat.ne_of_gt (List.length_pos_of_mem hv)
    rw [discard_of_used hused]
  · exact number?_discard_of_ne t hk

/-- Nobody stands in line at a lock that is forgotten. -/
theorem line_discard (h : t.Neat) (key k : String) : (t.discard key).line k = t.line k := by
  by_cases hk : k = key
  · subst hk
    by_cases hused : t.userCount k = 0
    · rw [line_of_none (number?_discard hused)]
      rw [h.counted] at hused
      exact (List.length_eq_zero_iff.1 hused).symm
    · rw [discard_of_used hused]
  · rw [line, number?_discard_of_ne t hk, line]
    have hobject : ∀ m, (t.discard key).object m = t.object m := fun m => by
      rw [discard]
      split <;> rfl
    simp only [hobject]

theorem number?_of_discard (h : (t.discard key).number? k = some n) : t.number? k = some n := by
  by_cases hk : k = key
  · subst hk
    by_cases hused : t.userCount k = 0
    · rw [number?_discard hused] at h
      cases h
    · rw [discard_of_used hused] at h
      exact h
  · rw [number?_discard_of_ne t hk] at h
    exact h

theorem Neat.discard (h : t.Neat) (key : String) : (t.discard key).Neat where
  objects := fun m => by
    rw [Locks.discard]
    split <;> exact h.objects m
  stored := fun k m hm => by
    have hlength : (t.discard key).objects.length = t.objects.length := by
      rw [Locks.discard]
      split <;> rfl
    rw [hlength]
    exact h.stored k m (number?_of_discard hm)
  distinct := fun j k m hj hk => h.distinct j k m (number?_of_discard hj) (number?_of_discard hk)
  counted := fun k => by
    rw [line_discard h, ← h.counted, Locks.discard]
    split <;> rfl

/-! ## What is nothing to others -/

/-- Neat locks from which one visitor has moved on: the others stand where they
stood, and those who came first come first. -/
structure Spares (v : Visitor) (t t' : Locks) : Prop where
  neat : t'.Neat
  mem : ∀ key u, u ≠ v → (u ∈ t'.line key ↔ u ∈ t.line key)
  head : ∀ key u, u ≠ v → (t.line key).head? = some u → (t'.line key).head? = some u
  number : ∀ key u, u ≠ v → u ∈ t.line key → t'.number? key = t.number? key

theorem Neat.spares (h : t.Neat) (v : Visitor) : t.Spares v t :=
  ⟨h, fun _ _ _ => .rfl, fun _ _ _ hu => hu, fun _ _ _ _ => rfl⟩

theorem Spares.trans {t' t'' : Locks} (h : t.Spares v t') (h' : t'.Spares v t'') :
    t.Spares v t'' where
  neat := h'.neat
  mem := fun key u hu => (h'.mem key u hu).trans (h.mem key u hu)
  head := fun key u hu hfirst => h'.head key u hu (h.head key u hu hfirst)
  number := fun key u hu hm =>
    (h'.number key u hu ((h.mem key u hu).2 hm)).trans (h.number key u hu hm)

theorem Neat.spares_join (h : t.Neat) (hv : v ∉ t.line key) : t.Spares v (t.join key v).2 where
  neat := h.join hv
  mem := fun k u hu => by
    rw [line_join h]
    split
    · rename_i hk
      subst hk
      rw [List.mem_append, List.mem_singleton, or_iff_left hu]
    · rfl
  head := fun k u _ hfirst => by
    rw [line_join h]
    split
    · rename_i hk
      subst hk
      rw [List.head?_append, hfirst]
      rfl
    · exact hfirst
  number := fun k u _ hm => by
    rw [number?_join]
    split
    · rename_i hk
      subst hk
      obtain ⟨n, hn⟩ := number?_of_mem hm
      rw [hn]
      show some (t.provide k).1 = some n
      rw [provide, hn]
    · rfl

theorem Neat.spares_quit (h : t.Neat) (hn : t.number? key = some n) (hv : v ∈ t.line key) :
    t.Spares v (t.quit key n v) where
  neat := h.quit hn hv
  mem := fun k u hu => by
    rw [line_quit h hn]
    split
    · rename_i hk
      subst hk
      exact List.mem_erase_of_ne hu
    · rfl
  head := fun k u hu hfirst => by
    rw [line_quit h hn]
    split
    · rename_i hk
      subst hk
      -- the first in line is not the one who quits
      cases hline : t.line k with
      | nil =>
          rw [hline] at hfirst
          cases hfirst
      | cons w rest =>
          rw [hline] at hfirst
          cases hfirst
          have hbeq : ¬ (u == v) = true := fun hc => hu (eq_of_beq hc)
          rw [List.erase_cons, if_neg hbeq]
          rfl
    · exact hfirst
  number := fun _ _ _ _ => rfl

theorem Neat.spares_discard (h : t.Neat) (key : String) (v : Visitor) :
    t.Spares v (t.discard key) where
  neat := h.discard key
  mem := fun k u _ => by rw [line_discard h]
  head := fun k u _ hfirst => by
    rw [line_discard h]
    exact hfirst
  number := fun k u _ hm => number?_discard_of_mem h hm

end Locks

end UssdFlows
