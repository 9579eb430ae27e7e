/-
Dictionary keys.

Formulas, sequents and rules are filed in dictionaries. What a
dictionary sees of a thing is its key: equal things have equal keys, and
things with different keys land in different places. Numbers share one
key space, whatever type they came from, so `1`, `1.0` and `true` meet.
-/
namespace Deduction

/-- A number, free of the type it was written in. -/
inductive Number where
  | rational (value : Rat)
  | infinite (negative : Bool)
  deriving DecidableEq, Repr

/-- What a dictionary sees of a thing. -/
inductive Key where
  | null
  | number (value : Number)
  | text (value : String)
  | pair (first second : Key)
  deriving DecidableEq, Repr

/-- The key of a sequence of keys. -/
def Key.sequence : List Key → Key
  | [] => .null
  | key :: keys => .pair key (sequence keys)

/-- For each element the position of the first element that agrees with
it, an element that agrees with none before it standing for itself. -/
def firstPositions {α : Type} (agree : α → α → Bool) (xs : List α) : List Nat :=
  xs.mapIdx fun i x =>
    ((xs.take i).findIdx? fun y => agree y x).getD i

-- ======================================================== dictionaries

/-- An entry of a dictionary: a thing, the hash it is filed under, and the
position noted for it. -/
structure Filed (α η : Type) where
  thing : α
  hash : η
  position : Nat
  deriving Repr

variable {α η : Type} [BEq η]

/-- The entry for a thing. Entries under another hash are passed over
without a look at the things themselves. -/
def filed? (agree : α → α → Bool) (entries : List (Filed α η)) (hash : η)
    (x : α) : Option (Filed α η) :=
  entries.find? fun entry => entry.hash == hash && agree entry.thing x

/-- Files things one after the other and gives the positions noted for
them. A thing that has an entry keeps its position, any other is filed
under the next one. There is no answer if some thing has no key. -/
def fileFrom? (hash : Key → η) (key? : α → Option Key)
    (agree : α → α → Bool) :
    List (Filed α η) → Nat → List α → Option (List Nat)
  | _, _, [] => some []
  | entries, next, x :: xs =>
    match key? x with
    | none => none
    | some key =>
      match filed? agree entries (hash key) x with
      | some entry =>
        (fileFrom? hash key? agree entries (next + 1) xs).map
          (entry.position :: ·)
      | none =>
        (fileFrom? hash key? agree (entries ++ [⟨x, hash key, next⟩])
          (next + 1) xs).map (next :: ·)

/-- The positions noted for a list of things in a new dictionary. -/
def fileAll? (hash : Key → η) (key? : α → Option Key)
    (agree : α → α → Bool) (xs : List α) : Option (List Nat) :=
  fileFrom? hash key? agree [] 0 xs

end Deduction
