import UssdFlows.Number.Binary64

/-!
# Document values

What a flow definition, a request body or the data of an external action is
made of before it is checked: scalars, lists and records.  Records keep the
order of their members; a member's name is usually a text, but the block
notation also admits other scalars as names.

A text in JSON may be written with halves of surrogate pairs that stand alone.
Such a row of codes is no text of characters, and is kept as what it is
(`Value.unpaired`).
-/

namespace UssdFlows

/-- A calendar date, with a time of day and an offset from universal time
(in minutes) where the document gives them. -/
structure Moment where
  year : Nat
  month : Nat
  day : Nat
  /-- Hour, minute, second and microsecond. -/
  time : Option (Nat × Nat × Nat × Nat)
  /-- Minutes ahead of universal time. -/
  offset : Option Int
  deriving DecidableEq, Repr

/-- A value of a document. -/
inductive Value where
  | null
  | bool (b : Bool)
  | int (n : Int)
  | real (x : Binary64)
  | text (s : String)
  /-- The codes of a text with half a surrogate pair that stands alone. -/
  | unpaired (codes : List Nat)
  | moment (m : Moment)
  | bytes (octets : List Nat)
  | list (items : List Value)
  | record (members : List (Value × Value))
  deriving Repr

namespace Value

instance : Inhabited Value := ⟨null⟩

/-- A record whose member names are texts. -/
def object (members : List (String × Value)) : Value :=
  record (members.map fun m => (text m.1, m.2))

/-- The text with some codes. -/
def ofCodes (codes : List Nat) : Value :=
  if codes.all fun n => decide n.isValidChar then text (String.ofList (codes.map Char.ofNat))
  else unpaired codes

/-- A text, or null if there is none. -/
def ofOption : Option String → Value
  | some s => text s
  | none => null

/-- A list of texts. -/
def texts (xs : List String) : Value := list (xs.map text)

/-- The number that a value counts as when two names are compared: whole
numbers, truth values (one and zero) and reals without a fraction. -/
def asInt? : Value → Option Int
  | bool b => some b.toNat
  | int n => some n
  | real x => x.toInt?
  | _ => none

/-- Whether two scalars are the same name: equal texts, equal moments, or
equal numbers of whatever kind. -/
def sameName (a b : Value) : Bool :=
  match a, b with
  | null, null => true
  | text s, text t => s == t
  | unpaired m, unpaired n => m == n
  | moment m, moment n => m == n
  | bytes m, bytes n => m == n
  | real x, real y => x.equal y
  | a, b =>
    match asInt? a, asInt? b with
    | some m, some n => m == n
    | _, _ => false

mutual

/-- Whether two values are the same value. -/
def same : Value → Value → Bool
  | null, null => true
  | bool a, bool b => a == b
  | int m, int n => m == n
  | real x, real y => x == y
  | text s, text t => s == t
  | unpaired m, unpaired n => m == n
  | moment m, moment n => m == n
  | bytes m, bytes n => m == n
  | list xs, list ys => sameItems xs ys
  | record xs, record ys => sameMembers xs ys
  | _, _ => false

/-- Whether two lists have the same items. -/
def sameItems : List Value → List Value → Bool
  | [], [] => true
  | x :: xs, y :: ys => same x y && sameItems xs ys
  | _, _ => false

/-- Whether two records have the same members in the same order. -/
def sameMembers : List (Value × Value) → List (Value × Value) → Bool
  | [], [] => true
  | (m, x) :: xs, (n, y) :: ys => same m n && same x y && sameMembers xs ys
  | _, _ => false

end

mutual

theorem same_iff : (a b : Value) → (same a b = true ↔ a = b)
  | null, b => by cases b <;> simp [same]
  | bool _, b => by cases b <;> simp [same]
  | int _, b => by cases b <;> simp [same]
  | real _, b => by cases b <;> simp [same]
  | text _, b => by cases b <;> simp [same]
  | unpaired _, b => by cases b <;> simp [same]
  | moment _, b => by cases b <;> simp [same]
  | bytes _, b => by cases b <;> simp [same]
  | list xs, b => by
    cases b with
    | list ys => simpa [same] using sameItems_iff xs ys
    | _ => simp [same]
  | record xs, b => by
    cases b with
    | record ys => simpa [same] using sameMembers_iff xs ys
    | _ => simp [same]

theorem sameItems_iff : (xs ys : List Value) → (sameItems xs ys = true ↔ xs = ys)
  | [], ys => by cases ys <;> simp [sameItems]
  | x :: xs, ys => by
    cases ys with
    | nil => simp [sameItems]
    | cons y ys => simp [sameItems, same_iff x y, sameItems_iff xs ys]

theorem sameMembers_iff : (xs ys : List (Value × Value)) → (sameMembers xs ys = true ↔ xs = ys)
  | [], ys => by cases ys <;> simp [sameMembers]
  | (m, x) :: xs, ys => by
    cases ys with
    | nil => simp [sameMembers]
    | cons y ys =>
      simp [sameMembers, same_iff m y.1, same_iff x y.2, sameMembers_iff xs ys, Prod.ext_iff]

end

instance : DecidableEq Value := fun a b => decidable_of_iff _ (same_iff a b)

/-- Stores a member of a record: the value replaces that of a member of the
same name, a new name goes to the end. -/
def putMember (members : List (Value × Value)) (name value : Value) : List (Value × Value) :=
  match members with
  | [] => [(name, value)]
  | (n, v) :: rest =>
    if sameName n name then (n, value) :: rest else (n, v) :: putMember rest name value

/-- The value of a member, by its text name. -/
def member? (members : List (Value × Value)) (name : String) : Option Value :=
  (members.find? fun m => sameName m.1 (text name)).map Prod.snd

/-- The member of a value that is a record. -/
def get? (v : Value) (name : String) : Option Value :=
  match v with
  | record members => member? members name
  | _ => none

/-- A text equals only itself. -/
theorem sameName_text (s t : String) : sameName (text s) (text t) = (s == t) := rfl

/-- A stored member is found again. -/
theorem member?_putMember_self (members : List (Value × Value)) (s : String) (v : Value) :
    member? (putMember members (text s) v) s = some v := by
  induction members with
  | nil => simp [putMember, member?, sameName_text]
  | cons m rest ih =>
    obtain ⟨n, w⟩ := m
    by_cases h : sameName n (text s) = true
    · simp [putMember, member?, h]
    · simp only [member?] at ih
      simp [putMember, member?, h, ih]

end Value

end UssdFlows
