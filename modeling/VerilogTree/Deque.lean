/-!
# Sequences that grow at both ends

A deque keeps its front part reversed, so that adding at either end is a push on an array and an
element is found by its index without a walk. `toList` is what a deque means; every operation has
one equation on it.
-/

namespace VerilogTree

/-- An ordered sequence with cheap insertion at both ends. -/
structure Deque (α : Type) where
  /-- The front part, last element first. -/
  front : Array α := #[]
  /-- The back part, in order. -/
  back : Array α := #[]

namespace Deque

variable {α : Type}

/-- The elements in order. -/
def toList (d : Deque α) : List α := d.front.toList.reverse ++ d.back.toList

/-- The elements from the back to the front. -/
def toListRev (d : Deque α) : List α := d.back.toList.reverse ++ d.front.toList

def empty : Deque α := {}

def ofList (xs : List α) : Deque α := { back := xs.toArray }

def pushFront (d : Deque α) (a : α) : Deque α := { d with front := d.front.push a }

def pushBack (d : Deque α) (a : α) : Deque α := { d with back := d.back.push a }

/-- Adds the elements of a list at the end, in order. -/
def pushBackAll (d : Deque α) (xs : List α) : Deque α := { d with back := d.back ++ xs }

/-- Joins two deques, the second one behind the first. -/
def append (d e : Deque α) : Deque α := d.pushBackAll e.toList

def size (d : Deque α) : Nat := d.front.size + d.back.size

def isEmpty (d : Deque α) : Bool := d.size == 0

/-- The element at an index counted from the front. -/
def get? (d : Deque α) (i : Nat) : Option α :=
  if i < d.front.size then d.front[d.front.size - 1 - i]? else d.back[i - d.front.size]?

def head? (d : Deque α) : Option α := d.get? 0

def last? (d : Deque α) : Option α := d.get? (d.size - 1)

/-- Deques of one size are compared item by item, so it does not matter how they are cut into two
parts. -/
instance [BEq α] : BEq (Deque α) :=
  ⟨fun d e => d.size == e.size && (List.range d.size).all fun i => d.get? i == e.get? i⟩

/-! ## The view of each operation -/

@[simp] theorem toList_empty : (empty : Deque α).toList = [] := rfl

@[simp] theorem toList_ofList (xs : List α) : (ofList xs).toList = xs := by
  simp [ofList, toList]

@[simp] theorem toList_pushFront (d : Deque α) (a : α) :
    (d.pushFront a).toList = a :: d.toList := by
  simp [pushFront, toList]

@[simp] theorem toList_pushBack (d : Deque α) (a : α) :
    (d.pushBack a).toList = d.toList ++ [a] := by
  simp [pushBack, toList]

@[simp] theorem toList_pushBackAll (d : Deque α) (xs : List α) :
    (d.pushBackAll xs).toList = d.toList ++ xs := by
  simp [pushBackAll, toList]

@[simp] theorem toList_append (d e : Deque α) : (d.append e).toList = d.toList ++ e.toList := by
  simp [append]

theorem size_eq_length (d : Deque α) : d.size = d.toList.length := by
  simp [size, toList]

theorem toListRev_eq_reverse (d : Deque α) : d.toListRev = d.toList.reverse := by
  simp [toListRev, toList]

theorem get?_eq_getElem? (d : Deque α) (i : Nat) : d.get? i = d.toList[i]? := by
  unfold get? toList
  by_cases h : i < d.front.size
  · rw [if_pos h, List.getElem?_append_left (by simpa using h),
      List.getElem?_reverse (by simpa using h)]
    simp
  · rw [if_neg h, List.getElem?_append_right (by simpa using h)]
    simp

theorem beq_iff_toList_eq [BEq α] [LawfulBEq α] (d e : Deque α) :
    (d == e) = true ↔ d.toList = e.toList := by
  change (d.size == e.size && (List.range d.size).all fun i => d.get? i == e.get? i) = true ↔ _
  simp only [Bool.and_eq_true, beq_iff_eq, List.all_eq_true, List.mem_range, size_eq_length,
    get?_eq_getElem?]
  constructor
  · rintro ⟨hlength, hitem⟩
    apply List.ext_getElem?
    intro i
    by_cases hi : i < d.toList.length
    · exact hitem i hi
    · rw [List.getElem?_eq_none (by omega), List.getElem?_eq_none (by omega)]
  · intro h
    simp [h]

end Deque

end VerilogTree
