import Mathlib.Data.List.Basic
import Mathlib.Data.List.GetD
import Mathlib.Data.List.TakeDrop

/-! Stream ciphers that combine each element with a key of its own: keys by position, and keys
that follow the plain text.
-/

namespace Foundation.Keystream

universe u v

variable {α : Type u} {κ : Type v} (combine : α → κ → α)

-----------------------------------------------------------------------------------------
-- Keys by position
-----------------------------------------------------------------------------------------

/-- The elements of a list that starts at a position, combined with their keys. -/
def crypt (key : Nat → κ) (start : Nat) (list : List α) : List α :=
  list.mapIdx fun i element => combine element (key (start + i))

/-- The pieces of a stream that starts at a position, each from where the one before ends. -/
def cryptPieces (key : Nat → κ) : Nat → List (List α) → List (List α)
  | _, [] => []
  | start, piece :: rest =>
      crypt combine key start piece :: cryptPieces key (start + piece.length) rest

variable {combine} {key other : Nat → κ} {start : Nat}

/-- Nothing is added or dropped. -/
@[simp] theorem crypt_length (list : List α)
    : (crypt combine key start list).length = list.length :=
  List.length_mapIdx

/-- One element is combined with the key of its position. -/
@[simp] theorem crypt_getElem? (list : List α) (i : Nat)
    : (crypt combine key start list)[i]?
      = list[i]?.map fun element => combine element (key (start + i)) :=
  List.getElem?_mapIdx

/-- What comes after a part of a stream is at the positions after it. -/
theorem crypt_append (first second : List α)
    : crypt combine key start (first ++ second)
      = crypt combine key start first ++ crypt combine key (start + first.length) second := by
  simp only [crypt, List.mapIdx_append, Nat.add_assoc, Nat.add_comm first.length]

/-- However a stream is cut into pieces, they make the stream, by induction on the pieces. -/
theorem cryptPieces_flatten (pieces : List (List α))
    : (cryptPieces combine key start pieces).flatten = crypt combine key start pieces.flatten := by
  induction pieces generalizing start with
  | nil => rfl
  | cons piece rest ih => rw [cryptPieces, List.flatten_cons, List.flatten_cons, ih, crypt_append]

/-- Only the keys of its positions matter to a stream. -/
theorem crypt_congr {list : List α}
    (same : ∀ i < list.length, key (start + i) = other (start + i))
    : crypt combine key start list = crypt combine other start list := by
  refine List.ext_getElem? fun i => ?_
  rw [crypt_getElem?, crypt_getElem?]
  refine Option.map_congr fun element held => ?_
  rw [same i (List.getElem?_eq_some_iff.mp held).1]

/-- Keys that change nothing. -/
theorem crypt_idle {list : List α}
    (idle : ∀ i < list.length, ∀ element, combine element (key (start + i)) = element)
    : crypt combine key start list = list := by
  refine List.ext_getElem? fun i => ?_
  rw [crypt_getElem?]
  cases held : list[i]? with
  | none => rfl
  | some element =>
      rw [Option.map_some, idle i (List.getElem?_eq_some_iff.mp held).1]

/-- Keys that undo themselves give back the stream. -/
theorem crypt_crypt (undoes : ∀ element key, combine (combine element key) key = element)
    (list : List α)
    : crypt combine key start (crypt combine key start list) = list := by
  refine List.ext_getElem? fun i => ?_
  rw [crypt_getElem?, crypt_getElem?, Option.map_map]
  cases list[i]? with
  | none => rfl
  | some element => exact congrArg some (undoes element _)

-----------------------------------------------------------------------------------------
-- Keys that follow the plain text
-----------------------------------------------------------------------------------------

variable (combine) in
/-- A plain text of a cipher text, when each key may depend on the plain text. -/
def Deciphers (key : List α → Nat → κ) (cipher plain : List α) : Prop :=
  plain = crypt combine (key plain) 0 cipher

variable (combine) in
/-- The cipher text of a plain text. -/
def encipher (key : List α → Nat → κ) (plain : List α) : List α :=
  crypt combine (key plain) 0 plain

/-- Keys that depend on the plain text before their positions only. -/
def Causal (key : List α → Nat → κ) : Prop :=
  ∀ (left right : List α) (i : Nat), left.take i = right.take i → key left i = key right i

variable {follow : List α → Nat → κ} {cipher plain plain' : List α}

/-- Two plain texts of one cipher text agree, by induction on how much of them is compared. -/
theorem Deciphers.unique (causal : Causal follow) (first : Deciphers combine follow cipher plain)
    (second : Deciphers combine follow cipher plain')
    : plain = plain' := by
  have agree : ∀ count, plain.take count = plain'.take count := by
    intro count
    induction count with
    | zero => rw [List.take_zero, List.take_zero]
    | succ count ih =>
        have here : plain[count]? = plain'[count]? := by
          rw [first, second, crypt_getElem?, crypt_getElem?, Nat.zero_add,
            causal plain plain' count ih]
        rw [List.take_add_one, List.take_add_one, ih, here]
  have same := agree (max plain.length plain'.length)
  rwa [List.take_of_length_le (Nat.le_max_left _ _),
    List.take_of_length_le (Nat.le_max_right _ _)] at same

/-- A plain text determines its cipher text. -/
theorem deciphers_iff (undoes : ∀ element key, combine (combine element key) key = element)
    : Deciphers combine follow cipher plain ↔ cipher = encipher combine follow plain := by
  constructor
  · intro deciphers
    calc cipher
        = crypt combine (follow plain) 0 (crypt combine (follow plain) 0 cipher) :=
          (crypt_crypt undoes cipher).symm
      _ = encipher combine follow plain :=
          congrArg (crypt combine (follow plain) 0) deciphers.symm
  · rintro rfl
    rw [Deciphers, encipher, crypt_crypt undoes]

-----------------------------------------------------------------------------------------
-- Elements combined one by one
-----------------------------------------------------------------------------------------

/-- A list none of whose elements are combined yet. -/
theorem mapIdx_none (f : Nat → α → α) (list : List α)
    : list.mapIdx (fun j element => if j < 0 then f j element else element) = list := by
  refine List.ext_getElem? fun i => ?_
  rw [List.getElem?_mapIdx]
  simp only [Nat.not_lt_zero, if_false, Option.map_id']

/-- A list whose first elements are combined, with one more. -/
theorem mapIdx_succ {f : Nat → α → α} {list : List α} {count : Nat}
    (inside : count < list.length) (fallback : α)
    : list.mapIdx (fun j element => if j < count + 1 then f j element else element)
      = (list.mapIdx fun j element => if j < count then f j element else element).set count
          (f count (list.getD count fallback)) := by
  refine List.ext_getElem? fun i => ?_
  rw [List.getElem?_mapIdx, List.getElem?_set, List.getElem?_mapIdx, List.length_mapIdx]
  by_cases here : count = i
  · subst here
    rw [if_pos rfl, if_pos inside, List.getElem?_eq_getElem inside, List.getD_eq_getElem _ _ inside]
    simp
  · have same : i < count + 1 ↔ i < count := by omega
    simp only [if_neg here, same]

/-- A list all of whose elements are combined. -/
theorem mapIdx_all {f : Nat → α → α} {list : List α} {count : Nat}
    (all : list.length ≤ count)
    : list.mapIdx (fun j element => if j < count then f j element else element)
      = list.mapIdx f := by
  refine List.ext_getElem? fun i => ?_
  rw [List.getElem?_mapIdx, List.getElem?_mapIdx]
  refine Option.map_congr fun element held => ?_
  rw [if_pos (Nat.lt_of_lt_of_le (List.getElem?_eq_some_iff.mp held).1 all)]

/-- The element that comes next is as it was. -/
theorem getD_mapIdx (f : Nat → α → α) (list : List α) (count : Nat) (fallback : α)
    : (list.mapIdx fun j element => if j < count then f j element else element).getD count fallback
      = list.getD count fallback := by
  rw [List.getD_eq_getElem?_getD, List.getElem?_mapIdx, List.getD_eq_getElem?_getD]
  simp only [Nat.lt_irrefl, if_false, Option.map_id']

end Foundation.Keystream
