import CoolOs.Queues.Ring

namespace CoolOs.Tables

open List Queues

/-!
# Tables whose rows evolve

A table is a list whose rows are never removed.  A relation on rows is lifted to
tables row by row; what a reflexive and transitive relation allows one step to do
to a row, it allows a sequence of steps to do.
-/

variable {Row : Type} {allows weaker : Row -> Row -> Prop}

/-- Every row of the first table is still there in the second, changed as allowed. -/
def Evolves (allows : Row -> Row -> Prop) (before after : List Row) : Prop :=
  forall (index : Nat) (row : Row), before[index]? = some row ->
    Exists fun next => after[index]? = some next ∧ allows row next

namespace Evolves

theorem mono (imp : ∀ row next, allows row next -> weaker row next) {before after : List Row}
    (evolves : Evolves allows before after) : Evolves weaker before after := by
  intro index row found
  rcases evolves index row found with ⟨next, later, allowed⟩
  exact ⟨next, later, imp row next allowed⟩

theorem refl (self : ∀ row, allows row row) (rows : List Row) : Evolves allows rows rows :=
  fun _ row found => ⟨row, found, self row⟩

theorem trans
    (chain : ∀ first second third, allows first second -> allows second third -> allows first third)
    {first second third : List Row} (start : Evolves allows first second)
    (rest : Evolves allows second third) : Evolves allows first third := by
  intro index row found
  rcases start index row found with ⟨middle, foundMiddle, allowed⟩
  rcases rest index middle foundMiddle with ⟨last, foundLast, allowedLast⟩
  exact ⟨last, foundLast, chain row middle last allowed allowedLast⟩

/-- Changing one row. -/
theorem modify (self : ∀ row, allows row row) {rows : List Row} {index : Nat}
    {change : Row -> Row} (here : ∀ row, rows[index]? = some row -> allows row (change row)) :
    Evolves allows rows (rows.modify index change) := by
  intro other row found
  rw [getElem?_modify, found]
  by_cases same : index = other
  · subst same
    exact ⟨change row, by simp, here row found⟩
  · exact ⟨row, by simp [same], self row⟩

theorem mapIdx {change : Nat -> Row -> Row} (each : ∀ index row, allows row (change index row))
    (rows : List Row) : Evolves allows rows (rows.mapIdx change) := by
  intro index row found
  exact ⟨change index row, by rw [getElem?_mapIdx, found]; rfl, each index row⟩

theorem append (self : ∀ row, allows row row) (rows fresh : List Row) :
    Evolves allows rows (rows ++ fresh) := by
  intro index row found
  have inside := (List.getElem?_eq_some_iff.mp found).1
  exact ⟨row, by rw [getElem?_append_left inside]; exact found, self row⟩

end Evolves

/-- Every row, with its index, is as required. -/
def Everywhere (holds : Nat -> Row -> Prop) (rows : List Row) : Prop :=
  forall (index : Nat) (row : Row), rows[index]? = some row -> holds index row

namespace Everywhere

variable {holds : Nat -> Row -> Prop} {rows : List Row}

theorem modify {index : Nat} {change : Row -> Row} (everywhere : Everywhere holds rows)
    (here : ∀ row, rows[index]? = some row -> holds index row -> holds index (change row)) :
    Everywhere holds (rows.modify index change) := by
  intro other row found
  rw [getElem?_modify] at found
  by_cases same : index = other
  · subst same
    simp only [if_true] at found
    rcases Option.map_eq_some_iff.mp found with ⟨old, present, rfl⟩
    exact here old present (everywhere index old present)
  · simp only [same, if_false, id_map'] at found
    exact everywhere other row found

theorem append {fresh : Row} (everywhere : Everywhere holds rows)
    (last : holds rows.length fresh) : Everywhere holds (rows ++ [fresh]) := by
  intro index row found
  by_cases inside : index < rows.length
  · rw [getElem?_append_left inside] at found
    exact everywhere index row found
  · rw [getElem?_append_right (Nat.le_of_not_lt inside)] at found
    rcases List.getElem?_eq_some_iff.mp found with ⟨bound, same⟩
    have position : index = rows.length := by
      rw [length_singleton] at bound
      omega
    subst position
    simp only [Nat.sub_self, getElem_cons_zero] at same
    exact same ▸ last

end Everywhere

/-!
## What the rows of a table hold

A table of lists, one for each holder.  A holder that has no row holds nothing.
-/

variable {Item : Type} (rows : List (List Item)) (holder : Nat)

/-- What a holder has. -/
def holding : List Item := rows.getD holder []

/-- The table with a row for the holder. -/
def ensureRow : List (List Item) :=
  rows ++ replicate (holder + 1 - rows.length) []

/-- The holder gets one more item. -/
def gain (item : Item) : List (List Item) :=
  (ensureRow rows holder).modify holder (fun row => row ++ [item])

/-- The holder gives up everything. -/
def giveUp : List (List Item) := rows.set holder []

theorem holding_ensureRow (holder other : Nat) :
    holding (ensureRow rows holder) other = holding rows other := by
  simp only [holding, ensureRow, getD_eq_getElem?_getD]
  by_cases inside : other < rows.length
  · rw [getElem?_append_left inside]
  · rw [getElem?_append_right (Nat.le_of_not_lt inside), getElem?_replicate,
      getElem?_eq_none (Nat.le_of_not_lt inside)]
    split <;> rfl

theorem lt_length_ensureRow : holder < (ensureRow rows holder).length := by
  rw [ensureRow, length_append, length_replicate]
  omega

theorem holding_gain (holder other : Nat) (item : Item) :
    holding (gain rows holder item) other =
      if holder = other then holding rows other ++ [item] else holding rows other := by
  have inside := lt_length_ensureRow rows holder
  rw [<- holding_ensureRow rows holder other]
  simp only [holding, gain, getD_eq_getElem?_getD, getElem?_modify]
  by_cases same : holder = other
  · subst same
    simp [inside]
  · simp [same]

theorem holding_giveUp (holder other : Nat) :
    holding (giveUp rows holder) other = if holder = other then [] else holding rows other := by
  simp only [holding, giveUp, getD_eq_getElem?_getD, getElem?_set]
  by_cases same : holder = other
  · subst same
    simp only [if_true]
    split <;> rfl
  · simp [same]

theorem mem_flatten_of_holding {rows : List (List Item)} {holder : Nat} {item : Item}
    (held : item ∈ holding rows holder) : item ∈ rows.flatten := by
  rw [holding, getD_eq_getElem?_getD] at held
  cases found : rows[holder]? with
  | none => simp [found] at held
  | some row =>
    rw [found] at held
    exact mem_flatten.mpr ⟨row, mem_of_getElem? found, held⟩

variable [DecidableEq Item]

theorem count_flatten_gain (item counted : Item) :
    (gain rows holder item).flatten.count counted =
      rows.flatten.count counted + [item].count counted := by
  have found := getElem?_eq_getElem (lt_length_ensureRow rows holder)
  have same : (ensureRow rows holder).flatten = rows.flatten := by simp [ensureRow]
  rcases split_at_index found with ⟨before, after, parts, position⟩
  rw [gain, <- same]
  rw [parts, <- position, modify_middle]
  simp only [flatten_append, flatten_cons, count_append]
  omega

/-- What everybody holds is what one holder has and what the others have. -/
theorem count_flatten_giveUp (counted : Item) :
    rows.flatten.count counted =
      (holding rows holder).count counted + (giveUp rows holder).flatten.count counted := by
  cases found : rows[holder]? with
  | none =>
    have outside := getElem?_eq_none_iff.mp found
    rw [holding, getD_eq_getElem?_getD, found, giveUp, set_eq_of_length_le outside]
    simp
  | some row =>
    rcases split_at_index found with ⟨before, after, parts, rfl⟩
    rw [holding, getD_eq_getElem?_getD, found, giveUp, parts, set_append_right _ _ (Nat.le_refl _)]
    simp only [Nat.sub_self, set_cons_zero, flatten_append, flatten_cons,
      count_append, Option.getD_some, count_nil]
    omega

end CoolOs.Tables
