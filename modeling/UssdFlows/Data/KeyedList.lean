/-!
# Lists with one entry per key

Nodes of a flow, variables of a session, stored sessions, published versions
and locks all live in the same kind of container: a list that keeps the order
in which keys first appeared and holds at most one entry for each key.  The
key of an entry is computed from the entry itself, so a stored node cannot
disagree with the id it is stored under.

* `put` replaces the entry of a known key where it stands and appends the
  entry of a new one (`find?_put`, `keys_put`).
* `erase` drops the entry of a key and keeps the order of the rest
  (`find?_erase`).
-/

namespace UssdFlows

/-- A list of entries in which no key occurs twice. -/
structure KeyedList {κ β : Type} (key : β → κ) where
  /-- The entries, in the order in which their keys first appeared. -/
  items : List β
  /-- No key occurs twice. -/
  nodup : (items.map key).Nodup

/-- A map from names to values: pairs keyed by their first part. -/
abbrev Dict (α : Type) := KeyedList (Prod.fst : String × α → String)

namespace KeyedList

variable {κ β : Type} [DecidableEq κ] {key : β → κ}

instance [DecidableEq β] : DecidableEq (KeyedList key) := fun a b =>
  match a, b with
  | ⟨xs, _⟩, ⟨ys, _⟩ =>
    if h : xs = ys then isTrue (by subst h; rfl)
    else isFalse fun e => h (congrArg KeyedList.items e)

instance [Repr β] : Repr (KeyedList key) := ⟨fun t n => reprPrec t.items n⟩

/-- The container without entries. -/
def empty : KeyedList key := ⟨[], List.nodup_nil⟩

instance : Inhabited (KeyedList key) := ⟨empty⟩

/-- The keys, in order. -/
def keys (t : KeyedList key) : List κ := t.items.map key

/-- The number of entries. -/
def size (t : KeyedList key) : Nat := t.items.length

/-- The entry stored under `k`. -/
def find? (t : KeyedList key) (k : κ) : Option β := t.items.find? fun x => key x = k

/-- Whether some entry is stored under `k`. -/
def contains (t : KeyedList key) (k : κ) : Bool := (t.find? k).isSome

/-- Replaces the first entry with the key of `x`, or appends `x`. -/
def place (key : β → κ) (x : β) : List β → List β
  | [] => [x]
  | y :: rest => if key y = key x then x :: rest else y :: place key x rest

/-! ## Placing one entry -/

theorem map_place (x : β) (xs : List β) :
    (place key x xs).map key =
      if key x ∈ xs.map key then xs.map key else xs.map key ++ [key x] := by
  induction xs with
  | nil => simp [place]
  | cons y rest ih =>
    by_cases h : key y = key x
    · simp [place, h]
    · have h' : ¬ key x = key y := fun e => h e.symm
      by_cases hm : key x ∈ rest.map key <;> simp [place, h, h', ih, hm]

theorem nodup_place (x : β) {xs : List β} (h : (xs.map key).Nodup) :
    ((place key x xs).map key).Nodup := by
  rw [map_place]
  split
  · exact h
  · rename_i hx
    refine List.nodup_append.mpr ⟨h, by simp, ?_⟩
    intro a ha b hb
    simp only [List.mem_singleton] at hb
    subst hb
    exact fun e => hx (e ▸ ha)

theorem find?_place (x : β) (xs : List β) (k : κ) :
    (place key x xs).find? (fun y => key y = k) =
      if key x = k then some x else xs.find? fun y => key y = k := by
  induction xs with
  | nil => by_cases h : key x = k <;> simp [place, h]
  | cons y rest ih =>
    rw [place]
    by_cases hy : key y = key x
    · rw [if_pos hy]
      by_cases hk : key x = k <;> simp [hy, hk]
    · rw [if_neg hy, List.find?_cons, List.find?_cons, ih]
      by_cases hk : key x = k
      · have : ¬ key y = k := fun e => hy (e.trans hk.symm)
        simp [this, hk]
      · by_cases hyk : key y = k <;> simp [hyk, hk]

theorem place_place {x y : β} (h : key x = key y) (xs : List β) :
    place key y (place key x xs) = place key y xs := by
  induction xs with
  | nil => simp [place, h]
  | cons z rest ih => by_cases hz : key z = key y <;> simp [place, h, hz, ih]

/-- Entries with different keys may be placed in either order, unless both keys
are new. -/
theorem place_comm {x y : β} (h : key x ≠ key y) {xs : List β}
    (known : key x ∈ xs.map key ∨ key y ∈ xs.map key) :
    place key y (place key x xs) = place key x (place key y xs) := by
  induction xs with
  | nil => simp at known
  | cons z rest ih =>
    by_cases hx : key z = key x
    · have hy : key z ≠ key y := fun e => h (hx.symm.trans e)
      rw [place, if_pos hx, place, if_neg h, place, if_neg hy, place, if_pos hx]
    · by_cases hy : key z = key y
      · rw [place, if_neg hx, place, if_pos hy, place, if_pos hy, place, if_neg (Ne.symm h)]
      · have known : key x ∈ rest.map key ∨ key y ∈ rest.map key := by
          simpa [Ne.symm hx, Ne.symm hy] using known
        rw [place, if_neg hx, place, if_neg hy, place, if_neg hy, place, if_neg hx, ih known]

/-- An entry with a new key is placed at the end. -/
theorem place_of_not_mem {x : β} {xs : List β} (h : key x ∉ xs.map key) :
    place key x xs = xs ++ [x] := by
  induction xs with
  | nil => rfl
  | cons y rest ih =>
    simp only [List.map_cons, List.mem_cons, not_or] at h
    rw [place, if_neg (Ne.symm h.1), ih h.2]
    rfl

/-- An entry with a known key is placed where the key stands. -/
theorem place_of_mem {x : β} {xs : List β} (hnodup : (xs.map key).Nodup) (h : key x ∈ xs.map key) :
    place key x xs = xs.map fun y => if key y = key x then x else y := by
  induction xs with
  | nil => simp at h
  | cons y rest ih =>
    obtain ⟨hy, hrest⟩ := List.nodup_cons.1 hnodup
    by_cases hk : key y = key x
    · have hothers : ∀ z ∈ rest, (if key z = key x then x else z) = z := fun z hz =>
        if_neg fun e => hy (List.mem_map.2 ⟨z, hz, e.trans hk.symm⟩)
      rw [place, if_pos hk, List.map_cons, if_pos hk, List.map_congr_left hothers, List.map_id']
    · have later : key x ∈ rest.map key := (List.mem_cons.1 h).resolve_left (Ne.symm hk)
      rw [place, if_neg hk, List.map_cons, if_neg hk, ih hrest later]

/-- Placing an entry counts it in place of the one with its key. -/
theorem countP_place (p : β → Bool) (x : β) (xs : List β) :
    (place key x xs).countP p + ((xs.find? fun y => key y = key x).any p).toNat =
      xs.countP p + (p x).toNat := by
  induction xs with
  | nil => cases h : p x <;> simp [place, h]
  | cons y rest ih =>
    by_cases hy : key y = key x
    · cases hpx : p x <;> cases hpy : p y <;> simp [place, hy, hpx, hpy]
    · rw [place, if_neg hy]
      simp only [List.countP_cons, List.find?_cons, hy, decide_false]
      omega

/-! ## Operations -/

/-- Stores `x` under its key: in place if the key is known, at the end if not. -/
def put (t : KeyedList key) (x : β) : KeyedList key :=
  ⟨place key x t.items, nodup_place x t.nodup⟩

/-- Stores `x` only if its key is new. -/
def putNew (t : KeyedList key) (x : β) : KeyedList key :=
  if t.contains (key x) then t else t.put x

/-- Drops the entry stored under `k`. -/
def erase (t : KeyedList key) (k : κ) : KeyedList key :=
  ⟨t.items.filter fun x => key x ≠ k,
    t.nodup.sublist (List.Sublist.map key List.filter_sublist)⟩

/-- Keeps the entries that satisfy `p`. -/
def filter (t : KeyedList key) (p : β → Bool) : KeyedList key :=
  ⟨t.items.filter p, t.nodup.sublist (List.Sublist.map key List.filter_sublist)⟩

/-- Stores the entries of a list one after another. -/
def putAll (t : KeyedList key) (xs : List β) : KeyedList key := xs.foldl put t

/-- The container built from a list: of two entries with one key the later
value stands at the earlier place. -/
def ofList (xs : List β) : KeyedList key := putAll empty xs

/-! ## What each operation does to look-ups and keys -/

@[simp] theorem find?_empty (k : κ) : (empty : KeyedList key).find? k = none := rfl

theorem find?_put (t : KeyedList key) (x : β) (k : κ) :
    (t.put x).find? k = if key x = k then some x else t.find? k :=
  find?_place x t.items k

@[simp] theorem find?_put_self (t : KeyedList key) (x : β) :
    (t.put x).find? (key x) = some x := by simp [find?_put]

theorem countP_put (t : KeyedList key) (p : β → Bool) (x : β) :
    (t.put x).items.countP p + ((t.find? (key x)).any p).toNat =
      t.items.countP p + (p x).toNat := countP_place p x t.items

theorem keys_put (t : KeyedList key) (x : β) :
    (t.put x).keys = if key x ∈ t.keys then t.keys else t.keys ++ [key x] :=
  map_place x t.items

/-- Storing an entry under a known key changes the entry of that key alone. -/
theorem items_put_of_mem {t : KeyedList key} {x : β} (h : key x ∈ t.keys) :
    (t.put x).items = t.items.map fun y => if key y = key x then x else y :=
  place_of_mem t.nodup h

/-- Of two entries with one key that are stored one after the other the later
one stays. -/
theorem put_put_of_eq (t : KeyedList key) {x y : β} (h : key x = key y) :
    (t.put x).put y = t.put y := by
  simp only [put, place_place h]

/-- Entries with different keys may be stored in either order, unless both keys
are new. -/
theorem put_comm (t : KeyedList key) {x y : β} (h : key x ≠ key y)
    (known : key x ∈ t.keys ∨ key y ∈ t.keys) : (t.put x).put y = (t.put y).put x := by
  simp only [put, place_comm h known]

theorem put_putAll_comm (t : KeyedList key) {x : β} {ys : List β} (h : ∀ y ∈ ys, key x ≠ key y)
    (known : key x ∈ t.keys) : (t.put x).putAll ys = (t.putAll ys).put x := by
  induction ys generalizing t with
  | nil => rfl
  | cons y rest ih =>
    have later : key x ∈ (t.put y).keys := by
      rw [keys_put]
      split
      · exact known
      · exact List.mem_append_left _ known
    have swapped := t.put_comm (h y List.mem_cons_self) (Or.inl known)
    show ((t.put x).put y).putAll rest = _
    rw [swapped]
    exact ih (t.put y) (fun z hz => h z (List.mem_cons_of_mem _ hz)) later

/-- Lists of entries without a common key may be stored in either order, if the
keys of the first one are known. -/
theorem putAll_comm (t : KeyedList key) {xs ys : List β} (h : ∀ x ∈ xs, ∀ y ∈ ys, key x ≠ key y)
    (known : ∀ x ∈ xs, key x ∈ t.keys) : (t.putAll xs).putAll ys = (t.putAll ys).putAll xs := by
  induction xs generalizing t with
  | nil => rfl
  | cons x rest ih =>
    have later : ∀ z ∈ rest, key z ∈ (t.put x).keys := fun z hz => by
      rw [keys_put]
      split
      · exact known z (List.mem_cons_of_mem _ hz)
      · exact List.mem_append_left _ (known z (List.mem_cons_of_mem _ hz))
    have swapped := t.put_putAll_comm (h x List.mem_cons_self) (known x List.mem_cons_self)
    show ((t.put x).putAll rest).putAll ys = _
    rw [ih (t.put x) (fun z hz => h z (List.mem_cons_of_mem _ hz)) later, swapped]
    rfl

/-- Entries with keys that are all new are stored in their order. -/
theorem items_putAll {t : KeyedList key} {xs : List β}
    (h : (t.items.map key ++ xs.map key).Nodup) : (t.putAll xs).items = t.items ++ xs := by
  induction xs generalizing t with
  | nil => simp [putAll]
  | cons x rest ih =>
    have fresh : key x ∉ t.items.map key := fun hx =>
      (List.nodup_append.1 h).2.2 _ hx _ List.mem_cons_self rfl
    have placed : (t.put x).items = t.items ++ [x] := place_of_not_mem fresh
    have later := ih (t := t.put x) (by rw [placed]; simpa using h)
    rw [show t.putAll (x :: rest) = (t.put x).putAll rest from rfl, later, placed,
      List.append_assoc, List.singleton_append]

/-- A container is built again from its entries. -/
theorem ofList_items (t : KeyedList key) : ofList t.items = t := by
  have items : (ofList t.items : KeyedList key).items = t.items :=
    items_putAll (t := empty) (by simpa [empty] using t.nodup)
  cases h : (ofList t.items : KeyedList key)
  cases t
  simp_all

/-- Storing entries leaves the other keys alone. -/
theorem find?_putAll_of_not_mem {t : KeyedList key} {xs : List β} {k : κ} (h : k ∉ xs.map key) :
    (t.putAll xs).find? k = t.find? k := by
  induction xs generalizing t with
  | nil => rfl
  | cons x rest ih =>
    simp only [List.map_cons, List.mem_cons, not_or] at h
    rw [show t.putAll (x :: rest) = (t.put x).putAll rest from rfl, ih h.2, find?_put,
      if_neg (Ne.symm h.1)]

theorem key_of_find? {t : KeyedList key} {k : κ} {x : β} (h : t.find? k = some x) :
    key x = k := by simpa using List.find?_some h

theorem mem_of_find? {t : KeyedList key} {k : κ} {x : β} (h : t.find? k = some x) :
    x ∈ t.items := List.mem_of_find?_eq_some h

theorem find?_eq_none_iff {t : KeyedList key} {k : κ} : t.find? k = none ↔ k ∉ t.keys := by
  simp [find?, keys, List.find?_eq_none]

theorem contains_iff {t : KeyedList key} {k : κ} : t.contains k = true ↔ k ∈ t.keys := by
  rw [contains, Option.isSome_iff_ne_none, ne_eq, find?_eq_none_iff, Decidable.not_not]

theorem contains_put {t : KeyedList key} {x : β} {k : κ} :
    (t.put x).contains k = true ↔ key x = k ∨ t.contains k = true := by
  rw [contains_iff, contains_iff, keys_put]
  by_cases h : key x ∈ t.keys
  · rw [if_pos h]
    exact ⟨Or.inr, fun o => o.elim (fun e => e ▸ h) fun e => e⟩
  · rw [if_neg h, List.mem_append, List.mem_singleton]
    exact ⟨fun o => o.elim Or.inr fun e => Or.inl e.symm, fun o => o.elim (fun e => Or.inr e.symm) Or.inl⟩

theorem contains_putAll {t : KeyedList key} {xs : List β} {k : κ} :
    (t.putAll xs).contains k = true ↔ k ∈ xs.map key ∨ t.contains k = true := by
  induction xs generalizing t with
  | nil => simp [putAll]
  | cons x rest ih =>
    have h := ih (t := t.put x)
    rw [contains_put] at h
    rw [List.map_cons, List.mem_cons, show t.putAll (x :: rest) = (t.put x).putAll rest from rfl, h]
    exact ⟨fun o => o.elim (fun e => Or.inl (Or.inr e)) fun o =>
        o.elim (fun e => Or.inl (Or.inl e.symm)) Or.inr,
      fun o => o.elim (fun o => o.elim (fun e => Or.inr (Or.inl e.symm)) Or.inl)
        fun e => Or.inr (Or.inr e)⟩

/-- A container built from a list has exactly the keys of its entries. -/
theorem contains_ofList {xs : List β} {k : κ} :
    (ofList xs : KeyedList key).contains k = true ↔ k ∈ xs.map key := by
  rw [ofList, contains_putAll]
  simp [contains]

theorem find?_of_mem {t : KeyedList key} {x : β} (h : x ∈ t.items) :
    t.find? (key x) = some x := by
  obtain ⟨xs, hn⟩ := t
  simp only [find?]
  replace h : x ∈ xs := h
  induction xs with
  | nil => simp at h
  | cons y rest ih =>
    simp only [List.map_cons, List.nodup_cons] at hn
    rcases List.mem_cons.mp h with rfl | hr
    · simp
    · have : key y ≠ key x := fun e => hn.1 (e ▸ List.mem_map_of_mem hr)
      simp [this, ih hn.2 hr]

theorem find?_eq_some_iff {t : KeyedList key} {k : κ} {x : β} :
    t.find? k = some x ↔ x ∈ t.items ∧ key x = k :=
  ⟨fun h => ⟨mem_of_find? h, key_of_find? h⟩, fun h => h.2 ▸ find?_of_mem h.1⟩

theorem find?_erase (t : KeyedList key) (k j : κ) :
    (t.erase k).find? j = if j = k then none else t.find? j := by
  simp only [find?, erase, List.find?_filter]
  by_cases h : j = k
  · subst h
    simp [List.find?_eq_none]
  · simp only [if_neg h]
    congr 1
    funext x
    by_cases hx : key x = j <;> simp [hx, h]

end KeyedList

end UssdFlows
