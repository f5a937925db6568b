import Mathlib.Algebra.GroupWithZero.Nat
import Mathlib.Data.Fin.Basic
import Mathlib.Data.List.Perm.Basic

namespace CoolOs.Queues

open List Option

/-!
# Tables of slots

Rows of slots, each empty or with one occupant.  Filling an empty slot adds its
occupant to the table and clearing a slot removes it; nothing else changes.
-/

variable {Item : Type} {size : Nat}

section

/-- All occupants of a table. -/
def occupants (rows : List (List (Option Item))) : List Item :=
  rows.flatMap (fun row => row.filterMap id)

/-- The occupant of one slot. -/
def slot (rows : List (List (Option Item))) (row column : Nat) : Option Item :=
  (rows[row]?.bind (fun cells => cells[column]?)).join

/-- Replace what is in one slot. -/
def setSlot (rows : List (List (Option Item))) (row column : Nat) (item : Option Item) :
    List (List (Option Item)) :=
  rows.modify row (fun cells => cells.set column item)

variable {Cell : Type} {item : Item}

theorem split_at_index {cells : List Cell} {index : Nat} {cell : Cell}
    (found : cells[index]? = some cell) :
    ∃ before after,
      cells = before ++ cell :: after ∧ before.length = index := by
  rcases List.getElem?_eq_some_iff.mp found with ⟨inside, same⟩
  refine ⟨cells.take index, cells.drop (index + 1), ?_, ?_⟩
  · rw [<- same, getElem_cons_drop, take_append_drop]
  · rw [length_take, Nat.min_eq_left (Nat.le_of_lt inside)]

theorem modify_middle (before after : List Cell) (cell : Cell) (change : Cell -> Cell) :
    (before ++ cell :: after).modify before.length change = before ++ change cell :: after := by
  induction before with
  | nil => rfl
  | cons first rest ih => exact congrArg (cons first) ih

variable {rows : List (List (Option Item))} {row column : Nat} {cells : List (Option Item)}

theorem filterMap_fill (empty : cells[column]? = some none) (item : Item) :
    ((cells.set column (some item)).filterMap id).Perm (item :: cells.filterMap id) := by
  rcases split_at_index empty with ⟨before, after, rfl, rfl⟩
  rw [set_append_right _ _ (Nat.le_refl _), Nat.sub_self]
  simp only [set_cons_zero, filterMap_append, filterMap_cons, id]
  exact perm_middle

theorem filterMap_clear (held : cells[column]? = some (some item)) :
    (cells.filterMap id).Perm (item :: (cells.set column none).filterMap id) := by
  rcases split_at_index held with ⟨before, after, rfl, rfl⟩
  rw [set_append_right _ _ (Nat.le_refl _), Nat.sub_self]
  simp only [set_cons_zero, filterMap_append, filterMap_cons, id]
  exact perm_middle

theorem setSlot_split (found : rows[row]? = some cells) (column : Nat) (item : Option Item) :
    ∃ before after,
      rows = before ++ cells :: after ∧
        setSlot rows row column item = before ++ cells.set column item :: after := by
  rcases split_at_index found with ⟨before, after, rfl, rfl⟩
  exact ⟨before, after, rfl, modify_middle before after cells _⟩

/-- Filling an empty slot adds its occupant. -/
theorem occupants_fill (found : rows[row]? = some cells)
    (empty : cells[column]? = some none) (item : Item) :
    (occupants (setSlot rows row column (some item))).Perm (item :: occupants rows) := by
  rcases setSlot_split found column (some item) with ⟨before, after, rfl, same⟩
  rw [same, occupants, occupants, flatMap_append, flatMap_append, flatMap_cons, flatMap_cons]
  refine ((filterMap_fill empty item).append_right _).append_left _ |>.trans ?_
  exact perm_middle

/-- Clearing a slot removes its occupant. -/
theorem occupants_clear (found : rows[row]? = some cells) (held : cells[column]? = some (some item))
    : (occupants rows).Perm (item :: occupants (setSlot rows row column none)) := by
  rcases setSlot_split found column none with ⟨before, after, rfl, same⟩
  rw [same, occupants, occupants, flatMap_append, flatMap_append, flatMap_cons, flatMap_cons]
  refine ((filterMap_clear held).append_right _).append_left _ |>.trans ?_
  exact perm_middle

theorem slot_setSlot_self (found : rows[row]? = some cells) (inside : column < cells.length)
    (item : Option Item) : slot (setSlot rows row column item) row column = item := by
  rw [slot, setSlot, getElem?_modify_eq, found, Option.map_eq_map, map_some, bind_some,
    getElem?_set_self inside]
  rfl

theorem slot_setSlot_other (rows : List (List (Option Item))) {otherRow otherColumn : Nat}
    (different : otherRow ≠ row ∨ otherColumn ≠ column) (item : Option Item) :
    slot (setSlot rows row column item) otherRow otherColumn = slot rows otherRow otherColumn := by
  rw [slot, slot, setSlot]
  by_cases same : row = otherRow
  · subst same
    have apart : column ≠ otherColumn := fun equal => different.elim (fun wrong => wrong rfl)
      (fun wrong => wrong equal.symm)
    rw [getElem?_modify_eq]
    cases rows[row]? with
    | none => rfl
    | some cells =>
      rw [Option.map_eq_map, map_some, bind_some, bind_some, getElem?_set_ne apart]
  · rw [getElem?_modify_ne _ _ same]

/-- Every occupant is in a slot, and every slot's item is an occupant. -/
theorem mem_occupants : item ∈ occupants rows <-> ∃ row column,
      slot rows row column = some item := by
  unfold occupants slot
  rw [mem_flatMap]
  constructor
  · rintro ⟨cells, listed, inside⟩
    rcases mem_iff_getElem?.mp listed with ⟨row, found⟩
    rcases mem_filterMap.mp inside with ⟨held, member, rfl⟩
    rcases mem_iff_getElem?.mp member with ⟨column, at_⟩
    exact ⟨row, column, by rw [found, bind_some, at_]; rfl⟩
  · rintro ⟨row, column, held⟩
    rcases join_eq_some_iff.mp held with inner
    rcases bind_eq_some_iff.mp inner with ⟨cells, found, at_⟩
    exact ⟨cells, mem_of_getElem? found, mem_filterMap.mpr ⟨some item, mem_of_getElem? at_, rfl⟩⟩

end

/-!
## Ring buffers

A ring buffer keeps a bounded queue in a fixed array: items enter at the head
and leave at the tail, and both indices go around the array.  Its contents are
the items between the two indices, and the operations are those of a queue.
-/

/-- The index some places after another one, around the array. -/
def around {size : Nat} [NeZero size] (base : Fin size) (offset : Nat) : Fin size :=
  Fin.ofNat size (base.val + offset)

section

variable [NeZero size]

theorem around_zero (base : Fin size) : around base 0 = base := Fin.ext (Nat.mod_eq_of_lt base.isLt)

theorem around_around (base : Fin size) (first second : Nat) :
    around (around base first) second = around base (first + second) := by
  apply Fin.ext
  change ((base.val + first) % size + second) % size = (base.val + (first + second)) % size
  rw [Nat.mod_add_mod, Nat.add_assoc]

/-- Two places less than a round apart are different. -/
theorem around_ne (base : Fin size) {first second : Nat} (before : first < second)
    (near : second < size) : around base first ≠ around base second := by
  intro same
  have values : (base.val + first) % size = (base.val + second) % size := congrArg Fin.val same
  have bound := base.isLt
  have quotient : size ∣ (base.val + second) - (base.val + first) :=
    Nat.dvd_of_mod_eq_zero (Nat.sub_mod_eq_zero_of_mod_eq values.symm)
  have distance := Nat.le_of_dvd (by omega) quotient
  omega

/-- A walk around the array, its first place apart. -/
theorem map_around_succ (cells : Fin size -> Item) (base : Fin size) (count : Nat) :
    (range (count + 1)).map (fun offset => cells (around base offset)) =
      cells base :: (range count).map (fun offset => cells (around (around base 1) offset)) := by
  rw [range_succ_eq_map, map_cons, List.map_map, around_zero]
  refine congrArg (cons _) (map_congr_left (fun offset _ => ?_))
  rw [around_around, Nat.add_comm]
  rfl

end

/-- A ring whose head is always its length ahead of its tail. -/
structure Ring (Item : Type) (size : Nat) [NeZero size] where
  cells : Fin size -> Item
  head : Fin size
  tail : Fin size
  len : Nat
  fits : len <= size
  ahead : head = around tail len

namespace Ring

variable [NeZero size]

def empty (filler : Item) : Ring Item size where
  cells := fun _ => filler
  head := Fin.ofNat size 0
  tail := Fin.ofNat size 0
  len := 0
  fits := Nat.zero_le size
  ahead := (around_zero _).symm

/-- The queued items, oldest first. -/
def contents (ring : Ring Item size) : List Item :=
  (range ring.len).map (fun offset => ring.cells (around ring.tail offset))

/-- Add an item at the head. -/
def push (ring : Ring Item size) (room : ring.len < size) (item : Item) : Ring Item size where
  cells := Function.update ring.cells ring.head item
  head := around ring.head 1
  tail := ring.tail
  len := ring.len + 1
  fits := room
  ahead := by rw [ring.ahead, around_around]

/-- Remove the item at the tail. -/
def pop (ring : Ring Item size) (some : 0 < ring.len) : Item × Ring Item size :=
  (ring.cells ring.tail,
    { ring with
      tail := around ring.tail 1
      len := ring.len - 1
      fits := Nat.le_trans (Nat.sub_le _ _) ring.fits
      ahead := by rw [ring.ahead, around_around, Nat.add_sub_cancel' some] })

/-- Add items from a list until the ring is full; returns how many. -/
def pushMany (ring : Ring Item size) : List Item -> Nat × Ring Item size
  | [] => (0, ring)
  | item :: rest =>
    if room : ring.len < size then
      let (count, final) := (ring.push room item).pushMany rest
      (count + 1, final)
    else (0, ring)

/-- Remove up to a number of items. -/
def popMany (ring : Ring Item size) : Nat -> List Item × Ring Item size
  | 0 => ([], ring)
  | count + 1 =>
    if some : 0 < ring.len then
      let (item, rest) := ring.pop some
      let (items, final) := rest.popMany count
      (item :: items, final)
    else ([], ring)

@[simp] theorem length_contents (ring : Ring Item size) : ring.contents.length = ring.len := by
  rw [contents, length_map, length_range]

theorem contents_eq_nil {ring : Ring Item size} : ring.contents = [] <-> ring.len = 0 := by
  rw [<- length_eq_zero_iff, length_contents]

theorem contents_push (ring : Ring Item size) (room : ring.len < size) (item : Item) :
    (ring.push room item).contents = ring.contents ++ [item] := by
  have last : Function.update ring.cells ring.head item (around ring.tail ring.len) = item := by
    rw [<- ring.ahead, Function.update_self]
  have kept : (range ring.len).map
      (fun offset => Function.update ring.cells ring.head item (around ring.tail offset)) =
      ring.contents := by
    refine map_congr_left (fun offset listed => ?_)
    rw [ring.ahead, Function.update_of_ne (around_ne ring.tail (mem_range.mp listed) room)]
  change (range (ring.len + 1)).map
    (fun offset => Function.update ring.cells ring.head item (around ring.tail offset)) = _
  rw [range_succ, map_append, kept, map_singleton, last]

theorem contents_pop (ring : Ring Item size) (some : 0 < ring.len) :
    ring.contents = (ring.pop some).1 :: (ring.pop some).2.contents := by
  have count : ring.len = (ring.len - 1) + 1 := (Nat.sub_add_cancel some).symm
  rw [contents, count, map_around_succ]
  rfl

theorem pushMany_spec (ring : Ring Item size) (items : List Item) :
    (ring.pushMany items).2.contents = ring.contents ++ items.take (ring.pushMany items).1 ∧
      (ring.pushMany items).1 = min items.length (size - ring.len) := by
  induction items generalizing ring with
  | nil => exact ⟨(append_nil _).symm, (Nat.zero_min _).symm⟩
  | cons item rest ih =>
    rw [pushMany]
    by_cases room : ring.len < size
    · rcases ih (ring.push room item) with ⟨contents, count⟩
      rw [dif_pos room]
      refine ⟨?_, ?_⟩
      · rw [contents, contents_push, append_assoc]
        rfl
      · change ((ring.push room item).pushMany rest).1 + 1 = _
        rw [count, length_cons]
        change min rest.length (size - (ring.len + 1)) + 1 = _
        omega
    · have full := ring.fits
      rw [dif_neg room]
      refine ⟨(append_nil _).symm, ?_⟩
      rw [length_cons]
      omega

theorem popMany_spec (ring : Ring Item size) (count : Nat) :
    (ring.popMany count).1 = ring.contents.take count ∧
      (ring.popMany count).2.contents = ring.contents.drop count := by
  induction count generalizing ring with
  | zero => exact ⟨rfl, rfl⟩
  | succ count ih =>
    rw [popMany]
    by_cases some : 0 < ring.len
    · rcases ih (ring.pop some).2 with ⟨items, rest⟩
      rw [dif_pos some, contents_pop ring some]
      exact ⟨congrArg (cons _) items, rest⟩
    · have none : ring.contents = [] := contents_eq_nil.mpr (Nat.eq_zero_of_not_pos some)
      rw [dif_neg some, none]
      exact ⟨rfl, rfl⟩

theorem popMany_append (ring : Ring Item size) (count : Nat) :
    (ring.popMany count).1 ++ (ring.popMany count).2.contents = ring.contents := by
  rw [(popMany_spec ring count).1, (popMany_spec ring count).2, take_append_drop]

end Ring

/-!
## Ring buffers with a gap

A ring buffer that keeps no length: it is empty where its two indices meet, so one
cell always stays free.  What does not fit is dropped and counted.
-/

structure GapRing (Item : Type) (size : Nat) [NeZero size] where
  cells : Fin size -> Item
  head : Fin size
  tail : Fin size
  dropped : UInt64

namespace GapRing

variable [NeZero size]

def empty (filler : Item) : GapRing Item size where
  cells := fun _ => filler
  head := Fin.ofNat size 0
  tail := Fin.ofNat size 0
  dropped := 0

/-- How many items are queued. -/
def pending (ring : GapRing Item size) : Nat :=
  if ring.tail.val <= ring.head.val then ring.head.val - ring.tail.val
  else size - ring.tail.val + ring.head.val

/-- Add an item at the head, or count it as dropped; the count saturates. -/
def push (ring : GapRing Item size) (item : Item) : GapRing Item size :=
  if around ring.head 1 = ring.tail then
    { ring with dropped := if ring.dropped + 1 = 0 then ring.dropped else ring.dropped + 1 }
  else
    { ring with
      cells := Function.update ring.cells ring.head item
      head := around ring.head 1 }

/-- Remove the item at the tail. -/
def pop (ring : GapRing Item size) : Option (Item × GapRing Item size) :=
  if ring.tail = ring.head then none
  else some (ring.cells ring.tail, { ring with tail := around ring.tail 1 })

/-- The queued items, oldest first. -/
def contents (ring : GapRing Item size) : List Item :=
  (List.range ring.pending).map (fun offset => ring.cells (around ring.tail offset))

theorem val_around_one (base : Fin size) :
    (around base 1).val = if base.val + 1 = size then 0 else base.val + 1 := by
  have bound := base.isLt
  change (base.val + 1) % size = _
  split
  · next last => rw [last, Nat.mod_self]
  · exact Nat.mod_eq_of_lt (by omega)

theorem pending_push_room {ring : GapRing Item size} (room : around ring.head 1 ≠ ring.tail)
    (item : Item) : (ring.push item).pending = ring.pending + 1 := by
  have tail := ring.tail.isLt
  rw [push, if_neg room]
  rw [ne_eq, Fin.ext_iff, val_around_one] at room
  simp only [pending, val_around_one]
  split_ifs at room ⊢ <;> omega

theorem pending_pos_iff (ring : GapRing Item size) :
    0 < ring.pending <-> ring.head ≠ ring.tail := by
  have inside := ring.tail.isLt
  rw [pending, ne_eq, Fin.ext_iff]
  split <;> omega

/-- After a push something is queued, whether it was full or not. -/
theorem pending_push (ring : GapRing Item size) (item : Item) (room : 1 < size) :
    0 < (ring.push item).pending := by
  have moves : ring.head ≠ around ring.head 1 := by
    have apart := around_ne ring.head Nat.zero_lt_one room
    rwa [around_zero] at apart
  rw [pending_pos_iff, push]
  split
  · next full => exact full ▸ moves
  · next free => exact free

end GapRing

end CoolOs.Queues
