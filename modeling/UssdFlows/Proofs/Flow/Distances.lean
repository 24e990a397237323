import Mathlib.Data.Nat.Find
import Mathlib.Data.Set.Card
import Mathlib.Order.Bounds.Basic
import UssdFlows.Flow.Report
import UssdFlows.Proofs.Flow.Descents
import UssdFlows.Proofs.Flow.Verdict

/-!
# The search in breadth finds the shortest ways

`Flow.levels` lists the nodes that can be reached from a start, round by round,
each with the number of its round.

* After so many rounds the nodes at that distance or less have been listed, each
  with its *distance*: the least number of edges on a way to it
  (`Wave.Exact.round`).  The distance of a node stays below the number of nodes,
  so that there are rounds enough (`IsDistance.lt_size`).
* The rounds can as well be done by a loop over a queue (`Wave.next?`), which
  comes to an end with the same list (`mem_eval_wave`).

What a report says about reachability and depth rests on this list, and so it is
what it should be (`reach_exact`).
-/

namespace UssdFlows.Flow

open Relation StateTransition

/-! ## Ways and distances -/

/-- A way of so many edges leads from one node to another. -/
inductive Walks (f : Flow) (a : String) : Nat → String → Prop
  | here : Walks f a 0 a
  | step {n : Nat} {b c : String} : Walks f a n b → f.Edge b c → Walks f a (n + 1) c

/-- The least number of edges on a way from one node to another. -/
def IsDistance (f : Flow) (a : String) (n : Nat) (b : String) : Prop :=
  f.Walks a n b ∧ ∀ m, f.Walks a m b → n ≤ m

variable {f : Flow} {a b c : String} {m n : Nat}

theorem reflTransGen_iff_walks : ReflTransGen f.Edge a b ↔ ∃ n, f.Walks a n b := by
  constructor
  · intro h
    induction h with
    | refl => exact ⟨0, .here⟩
    | tail _ hbc ih =>
        obtain ⟨n, hn⟩ := ih
        exact ⟨n + 1, hn.step hbc⟩
  · rintro ⟨n, h⟩
    induction h with
    | here => exact .refl
    | step _ hbc ih => exact ih.tail hbc

theorem Walks.exists_isDistance (h : f.Walks a n b) : ∃ m, m ≤ n ∧ f.IsDistance a m b := by
  classical
  have hex : ∃ n, f.Walks a n b := ⟨n, h⟩
  exact ⟨Nat.find hex, Nat.find_min' hex h, Nat.find_spec hex, fun m hm => Nat.find_min' hex hm⟩

theorem IsDistance.unique (h : f.IsDistance a m b) (h' : f.IsDistance a n b) : m = n :=
  Nat.le_antisymm (h.2 n h'.1) (h'.2 m h.1)

theorem reflTransGen_iff_isDistance : ReflTransGen f.Edge a b ↔ ∃ n, f.IsDistance a n b := by
  rw [reflTransGen_iff_walks]
  constructor
  · rintro ⟨n, h⟩
    obtain ⟨m, -, hm⟩ := h.exists_isDistance
    exact ⟨m, hm⟩
  · rintro ⟨n, h, -⟩
    exact ⟨n, h⟩

theorem isDistance_zero_iff : f.IsDistance a 0 b ↔ b = a := by
  constructor
  · rintro ⟨h, -⟩
    cases h
    rfl
  · rintro rfl
    exact ⟨.here, fun m _ => Nat.zero_le m⟩

/-- A node is at the next distance exactly if an edge leads to it from a node at this
one, and it is not at this one or nearer. -/
theorem isDistance_succ_iff : f.IsDistance a (n + 1) c ↔
    (∃ b, f.IsDistance a n b ∧ f.Edge b c) ∧ ¬ ∃ m, f.IsDistance a m c ∧ m ≤ n := by
  constructor
  · rintro ⟨hwalk, hmin⟩
    refine ⟨?_, fun ⟨m, hm, hle⟩ => ?_⟩
    · cases hwalk with
      | @step _ b _ hb hbc =>
          refine ⟨b, ⟨hb, fun m hm => ?_⟩, hbc⟩
          exact Nat.le_of_succ_le_succ (hmin _ (hm.step hbc))
    · exact Nat.not_succ_le_self n (Nat.le_trans (hmin m hm.1) hle)
  · rintro ⟨⟨b, hb, hbc⟩, hnone⟩
    refine ⟨hb.1.step hbc, fun m hm => ?_⟩
    obtain ⟨k, hkm, hk⟩ := hm.exists_isDistance
    have hnk : n < k := Nat.lt_of_not_le fun hle => hnone ⟨k, hk, hle⟩
    exact Nat.le_trans hnk hkm

/-- On the way to a node there is a node at each smaller distance; these differ from
each other. -/
theorem IsDistance.exists_nodup (h : f.IsDistance a n b) (ha : f.hasNode a = true) :
    ∃ l : List String, l.length = n + 1 ∧ l.Nodup ∧
      ∀ c ∈ l, f.hasNode c = true ∧ ∃ m, f.IsDistance a m c ∧ m ≤ n := by
  induction n generalizing b with
  | zero =>
      refine ⟨[a], rfl, List.nodup_singleton a, fun c hc => ?_⟩
      rw [List.mem_singleton.1 hc]
      exact ⟨ha, 0, isDistance_zero_iff.2 rfl, Nat.le_refl 0⟩
  | succ n ih =>
      obtain ⟨⟨c, hc, hcb⟩, hnone⟩ := isDistance_succ_iff.1 h
      obtain ⟨l, hlength, hnodup, hl⟩ := ih hc
      refine ⟨b :: l, by rw [List.length_cons, hlength], ?_, fun d hd => ?_⟩
      · exact List.nodup_cons.2 ⟨fun hb => hnone (hl b hb).2, hnodup⟩
      · rcases List.mem_cons.1 hd with rfl | hd
        · exact ⟨hasNode_of_edge hcb, n + 1, h, Nat.le_refl _⟩
        · obtain ⟨hnode, m, hm, hle⟩ := hl d hd
          exact ⟨hnode, m, hm, Nat.le_succ_of_le hle⟩

/-- Distances stay below the number of nodes. -/
theorem IsDistance.lt_size (h : f.IsDistance a n b) (ha : f.hasNode a = true) : n < f.size := by
  obtain ⟨l, hlength, hnodup, hl⟩ := h.exists_nodup ha
  have hsub : l ⊆ f.nodes.keys := fun c hc => KeyedList.contains_iff.1 (hl c hc).1
  have hle := (hnodup.subperm hsub).length_le
  have hsize := f.length_keys_le_size
  omega

/-! ## New nodes -/

/-- The members of a list that are not known, each once. -/
def news (known : List String) : List String → List String
  | [] => []
  | t :: ts => if known.contains t then news known ts else t :: news (known ++ [t]) ts

section

variable {known : List String}

theorem mem_news_iff {ts : List String} : a ∈ news known ts ↔ a ∈ ts ∧ a ∉ known := by
  induction ts generalizing known with
  | nil => simp [news]
  | cons t ts ih =>
      rw [news]
      by_cases hc : known.contains t = true
      · rw [if_pos hc, ih, List.mem_cons]
        have ht : t ∈ known := List.contains_iff_mem.1 hc
        constructor
        · exact fun h => ⟨Or.inr h.1, h.2⟩
        · rintro ⟨rfl | h, hk⟩
          · exact absurd ht hk
          · exact ⟨h, hk⟩
      · rw [if_neg hc, List.mem_cons, ih, List.mem_cons, List.mem_append, List.mem_singleton]
        have ht : t ∉ known := fun h => hc (List.contains_iff_mem.2 h)
        constructor
        · rintro (rfl | ⟨h, hk⟩)
          · exact ⟨Or.inl rfl, ht⟩
          · exact ⟨Or.inr h, fun hmem => hk (Or.inl hmem)⟩
        · rintro ⟨h, hk⟩
          by_cases hat : a = t
          · exact Or.inl hat
          · exact Or.inr ⟨h.resolve_left hat, fun hmem => hmem.elim hk hat⟩

theorem nodup_news (known ts : List String) : (news known ts).Nodup := by
  induction ts generalizing known with
  | nil => exact List.nodup_nil
  | cons t ts ih =>
      rw [news]
      split
      · exact ih known
      · refine List.nodup_cons.2 ⟨fun h => (mem_news_iff.1 h).2 ?_, ih _⟩
        exact List.mem_append_right _ (List.mem_singleton_self t)

theorem news_append (known ts us : List String) :
    news known (ts ++ us) = news known ts ++ news (known ++ news known ts) us := by
  induction ts generalizing known with
  | nil => simp [news]
  | cons t ts ih =>
      rw [List.cons_append, news, news]
      split
      · exact ih known
      · rw [ih, List.cons_append, List.append_assoc, List.singleton_append]

/-- Whatever is known may be left out beforehand. -/
theorem news_filter (ts : List String) (h : a ∈ known) :
    news known (ts.filter fun t => !t == a) = news known ts := by
  induction ts generalizing known with
  | nil => rfl
  | cons t ts ih =>
      by_cases hta : t = a
      · subst hta
        rw [List.filter_cons_of_neg (by simp), news, if_pos (List.contains_iff_mem.2 h)]
        exact ih h
      · rw [List.filter_cons_of_pos (by simpa using hta), news, news]
        split
        · exact ih h
        · rw [ih (List.mem_append_left _ h)]

/-- In a round the nodes found are made distinct before the known ones are left out. -/
theorem filter_eraseDups_eq_news (known ts : List String) :
    (ts.eraseDups.filter fun t => !known.contains t) = news known ts := by
  induction hlength : ts.length using Nat.strong_induction_on generalizing known ts with
  | _ k ih =>
      obtain _ | ⟨t, ts⟩ := ts
      · rfl
      · have hless : (ts.filter fun u => !u == t).length < k := by
          rw [← hlength, List.length_cons]
          exact Nat.lt_succ_of_le (List.length_filter_le ..)
        rw [List.eraseDups_cons, news]
        by_cases hc : known.contains t = true
        · rw [if_pos hc, List.filter_cons_of_neg (by simpa using hc), ih _ hless _ _ rfl]
          exact news_filter ts (List.contains_iff_mem.1 hc)
        · rw [if_neg hc, List.filter_cons_of_pos (by simpa using hc)]
          have hsame : (ts.filter fun u => !u == t).eraseDups.filter (fun u => !known.contains u) =
              (ts.filter fun u => !u == t).eraseDups.filter
                fun u => !(known ++ [t]).contains u := by
            refine List.filter_congr fun u hu => ?_
            rw [List.mem_eraseDups, List.mem_filter] at hu
            have hut : u ≠ t := by simpa using hu.2
            simp [hut]
          rw [hsame, ih _ hless _ _ rfl]
          exact congrArg _ (news_filter ts (List.mem_append_right _ (List.mem_singleton_self t)))

end

/-! ## Rounds -/

/-- The nodes from which the search has yet to go on, and those listed by now. -/
structure Wave where
  queue : List String
  levels : List (String × Nat)
  deriving DecidableEq, Repr

namespace Wave

/-- Only the start is listed. -/
def start (a : String) : Wave := ⟨[a], [(a, 0)]⟩

/-- The nodes listed by now. -/
def known (w : Wave) : List String := w.levels.map Prod.fst

/-- What a round finds. -/
def fresh (f : Flow) (w : Wave) : List String := news w.known (w.queue.flatMap f.successors)

/-- One round, which goes on from all nodes that the last one has found. -/
def round (f : Flow) (n : Nat) (w : Wave) : Wave :=
  ⟨w.fresh f, w.levels ++ (w.fresh f).map fun t => (t, n + 1)⟩

/-- So many rounds, the first of which has a number. -/
def rounds (f : Flow) : (count n : Nat) → Wave → Wave
  | 0, _, w => w
  | count + 1, n, w => rounds f count (n + 1) (w.round f n)

theorem explore_eq (f : Flow) (count n : Nat) (w : Wave) :
    explore f.successors count n w.levels w.queue = (rounds f count n w).levels := by
  induction count generalizing n w with
  | zero => rfl
  | succ count ih =>
      rw [explore, filter_eraseDups_eq_news]
      exact ih (n + 1) (w.round f n)

/-- Up to a distance all nodes are listed, each with its distance, and those at that
distance are the ones to go on from. -/
structure Exact (f : Flow) (a : String) (n : Nat) (w : Wave) : Prop where
  levels : ∀ b m, (b, m) ∈ w.levels ↔ f.IsDistance a m b ∧ m ≤ n
  queue : ∀ b, b ∈ w.queue ↔ f.IsDistance a n b
  nodup : w.known.Nodup
  sorted : w.levels.Pairwise fun x y => x.2 ≤ y.2

theorem exact_start (f : Flow) (a : String) : (start a).Exact f a 0 where
  levels := fun b m => by
    show (b, m) ∈ [(a, 0)] ↔ _
    rw [List.mem_singleton, Prod.mk.injEq, Nat.le_zero]
    constructor
    · rintro ⟨rfl, rfl⟩
      exact ⟨isDistance_zero_iff.2 rfl, rfl⟩
    · rintro ⟨h, rfl⟩
      exact ⟨isDistance_zero_iff.1 h, rfl⟩
  queue := fun b => List.mem_singleton.trans isDistance_zero_iff.symm
  nodup := List.nodup_singleton a
  sorted := List.pairwise_singleton _ _

variable {w : Wave}

theorem Exact.mem_known_iff (h : w.Exact f a n) :
    b ∈ w.known ↔ ∃ m, f.IsDistance a m b ∧ m ≤ n := by
  rw [known, List.mem_map]
  constructor
  · rintro ⟨⟨b, m⟩, hmem, rfl⟩
    exact ⟨m, (h.levels b m).1 hmem⟩
  · rintro ⟨m, hm⟩
    exact ⟨(b, m), (h.levels b m).2 hm, rfl⟩

/-- A round finds the nodes at the next distance. -/
theorem Exact.mem_fresh_iff (h : w.Exact f a n) :
    b ∈ w.fresh f ↔ f.IsDistance a (n + 1) b := by
  rw [fresh, mem_news_iff, List.mem_flatMap, h.mem_known_iff, isDistance_succ_iff]
  refine and_congr_left' (exists_congr fun c => ?_)
  rw [h.queue, mem_successors_iff]

/-- **Rounds.**  After a round all nodes up to the next distance are listed. -/
theorem Exact.round (h : w.Exact f a n) : (w.round f n).Exact f a (n + 1) where
  levels := fun b m => by
    show (b, m) ∈ w.levels ++ (w.fresh f).map (fun t => (t, n + 1)) ↔ _
    rw [List.mem_append, h.levels, List.mem_map]
    constructor
    · rintro (⟨hm, hle⟩ | ⟨t, ht, heq⟩)
      · exact ⟨hm, Nat.le_succ_of_le hle⟩
      · cases heq
        exact ⟨h.mem_fresh_iff.1 ht, Nat.le_refl _⟩
    · rintro ⟨hm, hle⟩
      rcases Nat.le_succ_iff.1 hle with hle | rfl
      · exact Or.inl ⟨hm, hle⟩
      · exact Or.inr ⟨b, h.mem_fresh_iff.2 hm, rfl⟩
  queue := fun b => h.mem_fresh_iff
  nodup := by
    have hknown : (w.round f n).known = w.known ++ w.fresh f := by
      simp [known, Wave.round, Function.comp_def]
    rw [hknown]
    refine List.nodup_append.2 ⟨h.nodup, nodup_news _ _, ?_⟩
    rintro b hb _ hfresh rfl
    exact (mem_news_iff.1 hfresh).2 hb
  sorted := by
    refine List.pairwise_append.2 ⟨h.sorted, ?_, ?_⟩
    · exact List.pairwise_map.2 (List.pairwise_of_forall fun _ _ => Nat.le_refl _)
    · rintro ⟨b, m⟩ hb _ hc
      obtain ⟨t, -, rfl⟩ := List.mem_map.1 hc
      exact Nat.le_succ_of_le ((h.levels b m).1 hb).2

theorem Exact.rounds (h : w.Exact f a n) (count : Nat) :
    (w.rounds f count n).Exact f a (n + count) := by
  induction count generalizing n w with
  | zero => exact h
  | succ count ih =>
      have hrest := ih h.round
      rw [Nat.add_right_comm] at hrest
      exact hrest

/-- When all rounds are done, nothing is left to go on from. -/
theorem rounds_size (ha : f.hasNode a = true) :
    (start a).rounds f f.size 0 = ⟨[], f.levels a⟩ := by
  have hexact := (exact_start f a).rounds f.size
  have hqueue : ((start a).rounds f f.size 0).queue = [] := by
    rw [List.eq_nil_iff_forall_not_mem]
    intro b hb
    have hlt := ((hexact.queue b).1 hb).lt_size ha
    omega
  have hlevels : ((start a).rounds f f.size 0).levels = f.levels a := by
    rw [← explore_eq, Flow.levels, if_pos ha]
    rfl
  rw [← hqueue, ← hlevels]

/-- So what the search lists in the end is all that there is to list. -/
theorem exact_levels (ha : f.hasNode a = true) : Exact f a f.size ⟨[], f.levels a⟩ := by
  have hexact := (exact_start f a).rounds f.size
  rw [rounds_size ha, Nat.zero_add] at hexact
  exact hexact

/-! ## The loop over a queue -/

/-- A node that is new is listed and has to wait for its turn. -/
def see (level : Nat) (w : Wave) (t : String) : Wave :=
  if w.known.contains t then w else ⟨w.queue ++ [t], w.levels ++ [(t, level)]⟩

/-- One round of the loop: the first node of the queue shows the nodes that it leads
to.  Nothing is left to do when the queue is empty. -/
def next? (next : String → List String) : Wave → Option Wave
  | ⟨[], _⟩ => none
  | ⟨id :: queue, levels⟩ =>
    some ((next id).foldl (see ((levels.lookup id).getD 0 + 1)) ⟨queue, levels⟩)

theorem foldl_see (level : Nat) (ts : List String) (w : Wave) :
    ts.foldl (see level) w =
      ⟨w.queue ++ news w.known ts, w.levels ++ (news w.known ts).map fun t => (t, level)⟩ := by
  induction ts generalizing w with
  | nil => simp [news]
  | cons t ts ih =>
      rw [List.foldl_cons, ih, news, see]
      split
      · rfl
      · simp [known]

/-- The nodes at the head of the queue, which are all on one level, have their turns:
together they do what a round does. -/
theorem reaches_turns {next : String → List String} {level : Nat} (turns found : List String)
    {levels : List (String × Nat)} (h : ∀ b ∈ turns, levels.lookup b = some level) :
    Reaches (next? next) ⟨turns ++ found, levels⟩
      ⟨found ++ news (levels.map Prod.fst) (turns.flatMap next),
        levels ++ (news (levels.map Prod.fst) (turns.flatMap next)).map
          fun t => (t, level + 1)⟩ := by
  induction turns generalizing found levels with
  | nil =>
      simp only [List.flatMap_nil, news, List.map_nil, List.append_nil, List.nil_append]
      exact .refl
  | cons b turns ih =>
      have hb : levels.lookup b = some level := h b (List.mem_cons_self ..)
      let fresh := news (levels.map Prod.fst) (next b)
      have hstep : next? next ⟨b :: turns ++ found, levels⟩ =
          some ⟨turns ++ (found ++ fresh), levels ++ fresh.map fun t => (t, level + 1)⟩ := by
        rw [List.cons_append, next?, foldl_see, hb, ← List.append_assoc]
        rfl
      have hturns : ∀ c ∈ turns,
          (levels ++ fresh.map fun t => (t, level + 1)).lookup c = some level := by
        intro c hc
        rw [List.lookup_append, h c (List.mem_cons_of_mem _ hc), Option.some_or]
      have hrest := ih (found ++ fresh) hturns
      have hknown : (levels ++ fresh.map fun t => (t, level + 1)).map Prod.fst =
          levels.map Prod.fst ++ fresh := by
        simp [Function.comp_def]
      rw [hknown, List.append_assoc, List.append_assoc, ← List.map_append] at hrest
      rw [List.flatMap_cons, news_append]
      exact .head hstep hrest

theorem Exact.lookup (h : w.Exact f a n) (hb : b ∈ w.queue) : w.levels.lookup b = some n := by
  have hmem : (b, n) ∈ w.levels := (h.levels b n).2 ⟨(h.queue b).1 hb, Nat.le_refl n⟩
  obtain ⟨before, after, hsplit⟩ := List.append_of_mem hmem
  refine List.lookup_eq_some_iff.2 ⟨before, after, hsplit, fun x hx => ?_⟩
  have hnodup := h.nodup
  rw [known, hsplit, List.map_append] at hnodup
  have hne := (List.nodup_append.1 hnodup).2.2 x.1 (List.mem_map_of_mem hx) b
    (List.mem_cons_self ..)
  simpa using Ne.symm hne

theorem Exact.reaches_rounds (h : w.Exact f a n) (count : Nat) :
    Reaches (next? f.successors) w (w.rounds f count n) := by
  induction count generalizing n w with
  | zero => exact .refl
  | succ count ih =>
      have hround : Reaches (next? f.successors) ⟨w.queue ++ [], w.levels⟩ (w.round f n) :=
        reaches_turns w.queue [] fun b => h.lookup
      rw [List.append_nil] at hround
      exact ReflTransGen.trans hround (ih h.round)

/-- **The loop ends.**  From a node it comes to an end with the list of all nodes that
can be reached from there. -/
theorem mem_eval_wave (ha : f.hasNode a = true) :
    (⟨[], f.levels a⟩ : Wave) ∈ eval (next? f.successors) (start a) := by
  refine mem_eval.2 ⟨?_, rfl⟩
  rw [← rounds_size ha]
  exact (exact_start f a).reaches_rounds f.size

end Wave

/-! ## Levels -/

theorem levels_eq_nil (h : f.hasNode a = false) : f.levels a = [] := by
  rw [levels, if_neg (by simp [h])]

/-- A node is listed exactly with its distance. -/
theorem mem_levels_iff : (b, n) ∈ f.levels a ↔ f.hasNode a = true ∧ f.IsDistance a n b := by
  cases ha : f.hasNode a with
  | false => simp [levels_eq_nil ha]
  | true =>
      rw [(Wave.exact_levels ha).levels b n]
      constructor
      · exact fun h => ⟨rfl, h.1⟩
      · intro h
        exact ⟨h.2, (h.2.lt_size ha).le⟩

theorem mem_reachable_iff :
    b ∈ f.reachable a ↔ f.hasNode a = true ∧ ReflTransGen f.Edge a b := by
  rw [reachable, List.mem_map, reflTransGen_iff_isDistance]
  constructor
  · rintro ⟨⟨b, n⟩, h, rfl⟩
    obtain ⟨ha, hn⟩ := mem_levels_iff.1 h
    exact ⟨ha, n, hn⟩
  · rintro ⟨ha, n, hn⟩
    exact ⟨(b, n), mem_levels_iff.2 ⟨ha, hn⟩, rfl⟩

theorem nodup_reachable (f : Flow) (a : String) : (f.reachable a).Nodup := by
  cases ha : f.hasNode a with
  | false => simp [reachable, levels_eq_nil ha]
  | true => exact (Wave.exact_levels ha).nodup

/-- The nearest nodes come first. -/
theorem pairwise_levels (f : Flow) (a : String) :
    (f.levels a).Pairwise fun x y => x.2 ≤ y.2 := by
  cases ha : f.hasNode a with
  | false => simp [levels_eq_nil ha]
  | true => exact (Wave.exact_levels ha).sorted

/-! ## Reports -/

theorem kind_of_mem_checkMenu {i : Finding} {node : Node} (h : i ∈ checkMenu node) :
    i.kind = "empty_menu" ∨ i.kind = "duplicate_option_key" := by
  unfold checkMenu at h
  split at h
  · rw [List.mem_singleton.1 h]
    exact Or.inl rfl
  · split at h
    · cases h
    · rw [List.mem_singleton.1 h]
      exact Or.inr rfl
  · cases h

theorem kind_of_mem_checkUsability {i : Finding} {limits : Limits} {bindings : Dict String}
    {node : Node} (h : i ∈ checkUsability limits bindings node) :
    i.kind = "too_many_options" ∨ i.kind = "missing_validation" ∨ i.kind = "long_prompt" := by
  simp only [checkUsability, List.mem_append] at h
  rcases h with (h | h) | h
  · refine Or.inl ?_
    split at h
    · split at h
      · rw [List.mem_singleton.1 h]
        rfl
      · cases h
    · cases h
  · refine Or.inr (Or.inl ?_)
    split at h
    · split at h
      · rw [List.mem_singleton.1 h]
        rfl
      · cases h
    · cases h
  · refine Or.inr (Or.inr ?_)
    split at h
    · rw [List.mem_singleton.1 h]
      rfl
    · cases h

/-- What a report says about reachability comes from one check. -/
theorem filter_findings {kind : String} (hstart : f.hasNode f.startNode = true)
    (hkind : kind = "unreachable_node" ∨ kind = "no_terminal_path") (limits : Limits) :
    (f.findings limits).filter (fun i => i.kind == kind) =
      f.checkReachability.filter fun i => i.kind == kind := by
  have hnone {l : List Finding}
      (h : ∀ i ∈ l, i.kind ≠ "unreachable_node" ∧ i.kind ≠ "no_terminal_path") :
      l.filter (fun i => i.kind == kind) = [] := by
    refine List.filter_eq_nil_iff.2 fun i hi => ?_
    rcases hkind with rfl | rfl
    · simpa using (h i hi).1
    · simpa using (h i hi).2
  have hedges : f.checkEdges.filter (fun i => i.kind == kind) = [] := hnone fun i hi => by
    obtain ⟨r, -, rfl⟩ := List.mem_map.1 hi
    simp [Finding.kind]
  have hmenus : (f.nodes.items.flatMap checkMenu).filter (fun i => i.kind == kind) = [] :=
    hnone fun i hi => by
      obtain ⟨node, -, hi⟩ := List.mem_flatMap.1 hi
      rcases kind_of_mem_checkMenu hi with hk | hk <;> rw [hk] <;> decide
  have hcycles : f.checkCycles.filter (fun i => i.kind == kind) = [] := hnone fun i hi => by
    obtain ⟨c, -, rfl⟩ := List.mem_map.1 hi
    simp [Finding.kind]
  have husability : (f.nodes.items.flatMap (checkUsability limits f.defaults)).filter
      (fun i => i.kind == kind) = [] := hnone fun i hi => by
    obtain ⟨node, -, hi⟩ := List.mem_flatMap.1 hi
    rcases kind_of_mem_checkUsability hi with hk | hk | hk <;> rw [hk] <;> decide
  rw [findings, checkStart, if_pos hstart, if_pos hstart]
  simp only [List.filter_append, hedges, hmenus, hcycles, husability, List.nil_append,
    List.append_nil]

open Classical in
/-- The nodes that cannot be reached, as a report lists them. -/
theorem filter_unreachable (hstart : f.hasNode f.startNode = true) (limits : Limits) :
    (f.findings limits).filter (fun i => i.kind == "unreachable_node") =
      (f.nodes.keys.filter fun b => decide (¬ ReflTransGen f.Edge f.startNode b)).map
        .unreachable := by
  have hsame : (f.nodes.keys.filter fun b => !(f.reachable f.startNode).contains b) =
      f.nodes.keys.filter fun b => decide (¬ ReflTransGen f.Edge f.startNode b) := by
    refine List.filter_congr fun b _ => ?_
    have hmem : b ∈ f.reachable f.startNode ↔ ReflTransGen f.Edge f.startNode b :=
      mem_reachable_iff.trans (and_iff_right hstart)
    by_cases hb : ReflTransGen f.Edge f.startNode b
    · simp [hb, hmem.2 hb]
    · simp [hb, mt hmem.1 hb]
  rw [filter_findings hstart (Or.inl rfl), checkReachability, hsame, List.filter_append]
  have hend : (if (f.reachable f.startNode).any (fun id =>
      (f.node? id).any fun n => n.kind == .terminal) then []
      else [Finding.noEndReachable f.startNode]).filter
        (fun i => i.kind == "unreachable_node") = [] := by
    split <;> simp [Finding.kind]
  rw [hend, List.append_nil, List.filter_eq_self]
  intro i hi
  obtain ⟨b, -, rfl⟩ := List.mem_map.1 hi
  rfl

open Classical in
/-- A report says that no end can be reached exactly if there is no way to one. -/
theorem filter_noEndReachable (hstart : f.hasNode f.startNode = true) (limits : Limits) :
    (f.findings limits).filter (fun i => i.kind == "no_terminal_path") =
      if ∃ b node, f.node? b = some node ∧ node.kind = .terminal ∧
        ReflTransGen f.Edge f.startNode b then [] else [.noEndReachable f.startNode] := by
  have hany : (f.reachable f.startNode).any (fun id =>
      (f.node? id).any fun n => n.kind == .terminal) = true ↔
      ∃ b node, f.node? b = some node ∧ node.kind = .terminal ∧
        ReflTransGen f.Edge f.startNode b := by
    rw [List.any_eq_true]
    refine exists_congr fun b => ?_
    rw [mem_reachable_iff, and_iff_right hstart, Option.any_eq_true]
    constructor
    · rintro ⟨hway, node, hnode, hend⟩
      exact ⟨node, hnode, by simpa using hend, hway⟩
    · rintro ⟨node, hnode, hend, hway⟩
      exact ⟨hway, node, hnode, by simpa using hend⟩
  have hlost : ((f.nodes.keys.filter fun b => !(f.reachable f.startNode).contains b).map
      Finding.unreachable).filter (fun i => i.kind == "no_terminal_path") = [] := by
    refine List.filter_eq_nil_iff.2 fun i hi => ?_
    obtain ⟨b, -, rfl⟩ := List.mem_map.1 hi
    simp [Finding.kind]
  rw [filter_findings hstart (Or.inr rfl), checkReachability, List.filter_append, hlost,
    List.nil_append]
  by_cases hend : ∃ b node, f.node? b = some node ∧ node.kind = .terminal ∧
      ReflTransGen f.Edge f.startNode b
  · rw [if_pos hend, if_pos (hany.2 hend)]
    rfl
  · rw [if_neg hend, if_neg (mt hany.1 hend)]
    rfl

theorem length_levels (ha : f.hasNode a = true) :
    (f.levels a).length = {b | ReflTransGen f.Edge a b}.ncard := by
  have hset : {b | ReflTransGen f.Edge a b} = ((f.reachable a).toFinset : Set String) := by
    ext b
    rw [Set.mem_ofPred_eq, Finset.mem_coe, List.mem_toFinset, mem_reachable_iff,
      and_iff_right ha]
  rw [hset, Set.ncard_coe_finset, List.toFinset_card_of_nodup (f.nodup_reachable a), reachable,
    List.length_map]

/-- The greatest of some numbers, or the one to begin with. -/
theorem isGreatest_foldl_max (k : Nat) (l : List Nat) :
    IsGreatest {m | m = k ∨ m ∈ l} (l.foldl max k) := by
  induction l generalizing k with
  | nil => exact ⟨Or.inl rfl, fun m hm => (hm.resolve_right List.not_mem_nil).le⟩
  | cons j l ih =>
      obtain ⟨hmem, hbound⟩ := ih (max k j)
      refine ⟨?_, ?_⟩
      · rcases hmem with hmax | hmem
        · rcases max_choice k j with hk | hj
          · exact Or.inl (hmax.trans hk)
          · exact Or.inr (List.mem_cons.2 (Or.inl (hmax.trans hj)))
        · exact Or.inr (List.mem_cons_of_mem _ hmem)
      · have hstart : max k j ≤ l.foldl max (max k j) := hbound (Or.inl rfl)
        rintro m (rfl | hm)
        · exact (le_max_left m j).trans hstart
        · rcases List.mem_cons.1 hm with rfl | hm
          · exact (le_max_right k m).trans hstart
          · exact hbound (Or.inr hm)

theorem isGreatest_maxDepth (hstart : f.hasNode f.startNode = true) :
    IsGreatest {n | ∃ b, f.IsDistance f.startNode n b} f.stats.maxDepth := by
  have hset : {n | ∃ b, f.IsDistance f.startNode n b} =
      {m | m = 0 ∨ m ∈ (f.levels f.startNode).map Prod.snd} := by
    ext n
    simp only [Set.mem_ofPred_eq, List.mem_map, Prod.exists, exists_eq_right, mem_levels_iff,
      hstart, true_and]
    refine ⟨Or.inr, ?_⟩
    rintro (rfl | h)
    · exact ⟨f.startNode, isDistance_zero_iff.2 rfl⟩
    · exact h
  rw [hset]
  exact isGreatest_foldl_max 0 _

open Classical in
/-- **Reachability is exact.**  From a node the search in breadth comes to an end, and
from what is no node it finds nothing.  It lists exactly the nodes to which a way
leads, each once with the least number of edges on such a way, the nearest
first.

A report on a flow whose start node exists names exactly the nodes to which no
way leads from there, as they are declared; it says that no end can be reached
exactly if no way leads to an end node; it counts the nodes that can be reached;
and its depth is the greatest distance from the start node. -/
theorem reach_exact (f : Flow) (a : String) (limits : Limits) :
    (if f.hasNode a then
        (⟨[], f.levels a⟩ : Wave) ∈ eval (Wave.next? f.successors) (Wave.start a)
      else f.levels a = []) ∧
    (∀ b, b ∈ f.reachable a ↔ f.hasNode a = true ∧ ReflTransGen f.Edge a b) ∧
    (∀ b n, (b, n) ∈ f.levels a ↔ f.hasNode a = true ∧ f.IsDistance a n b) ∧
    (f.reachable a).Nodup ∧
    ((f.levels a).Pairwise fun x y => x.2 ≤ y.2) ∧
    (f.hasNode f.startNode = true →
      (f.report limits).findings.filter (fun i => i.kind == "unreachable_node") =
          (f.nodes.keys.filter fun b =>
            decide (¬ ReflTransGen f.Edge f.startNode b)).map .unreachable ∧
        (f.report limits).findings.filter (fun i => i.kind == "no_terminal_path") =
          (if ∃ b node, f.node? b = some node ∧ node.kind = .terminal ∧
            ReflTransGen f.Edge f.startNode b then [] else [.noEndReachable f.startNode]) ∧
        (f.report limits).stats.reachableNodes =
          {b | ReflTransGen f.Edge f.startNode b}.ncard ∧
        IsGreatest {n | ∃ b, f.IsDistance f.startNode n b}
          (f.report limits).stats.maxDepth) := by
  refine ⟨?_, fun b => mem_reachable_iff, fun b n => mem_levels_iff, f.nodup_reachable a,
    f.pairwise_levels a, fun hstart => ⟨filter_unreachable hstart limits,
      filter_noEndReachable hstart limits, length_levels hstart, isGreatest_maxDepth hstart⟩⟩
  cases ha : f.hasNode a with
  | false => simpa using levels_eq_nil ha
  | true => simpa using Wave.mem_eval_wave ha

/-- No session of the flow that asks for a name goes farther than to its second node. -/
theorem reach_exact_greeting :
    greeting.hasNode greeting.startNode = true ∧
      IsGreatest {n | ∃ b, greeting.IsDistance greeting.startNode n b} 1 := by
  have hstart : greeting.hasNode greeting.startNode = true := by decide +kernel
  have hdepth : (greeting.report .standard).stats.maxDepth = 1 := by decide +kernel
  refine ⟨hstart, ?_⟩
  rw [← hdepth]
  exact ((reach_exact greeting greeting.startNode .standard).2.2.2.2.2 hstart).2.2.2

end UssdFlows.Flow
