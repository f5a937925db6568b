import CoolOs.Actions.Action
import CoolOs.CoolFs.Format
import Mathlib.Data.Nat.Digits.Lemmas

namespace CoolOs.Files

open Actions Action CoolFs List

/-!
# Directory listings

`sys_fs_list_dir` writes one record for each entry of a directory into a buffer of the
caller, byte by byte, and stops where the buffer ends.
-/

@[simp] abbrev tab : UInt8 := 9
@[simp] abbrev newline : UInt8 := 10

/-- The length of the buffer and the bytes that are in it so far. -/
structure Listing where
  capacity : Nat
  written : List UInt8

def appendDirListingByte (byte : UInt8) : Action Listing Unit Unit := fun listing =>
  if listing.written.length ≥ listing.capacity then (.error (), listing)
  else (.ok (), { listing with written := listing.written ++ [byte] })

def appendDirListingBytes (bytes : List UInt8) : Action Listing Unit Unit :=
  each appendDirListingByte bytes

variable (value : Nat)

def digit : UInt8 := 48 + UInt8.ofNat value

/-- The digits in the order in which the first loop finds them. -/
def lowDigits (value : Nat) : List UInt8 :=
  if 0 < value then digit (value % 10) :: lowDigits (value / 10) else []

def appendDirListingU64 : Action Listing Unit Unit :=
  if value = 0 then appendDirListingByte 48
  else appendDirListingBytes (lowDigits value).reverse

def appendEntry (entry : DirEntryInfo) : Action Listing Unit Unit := do
  appendDirListingByte (if entry.isDir then 68 else 70)
  appendDirListingByte tab
  appendDirListingBytes entry.name
  appendDirListingByte tab
  appendDirListingU64 entry.size
  appendDirListingByte newline

variable (entries : List DirEntryInfo)

/-- The bytes that the call reports as written. -/
def sysFsListDir (capacity : Nat) : List UInt8 :=
  (each appendEntry entries ⟨capacity, []⟩).2.written

def decimalBytes : List UInt8 :=
  if value = 0 then [digit 0] else ((Nat.digits 10 value).map digit).reverse

/-- What stands for an entry in a listing. -/
def record (entry : DirEntryInfo) : List UInt8 :=
  (if entry.isDir then 68 else 70) :: tab ::
    (entry.name ++ tab :: (decimalBytes entry.size ++ [newline]))

def records : List UInt8 := entries.flatMap record

/-- The action puts these bytes into the buffer, as far as they fit. -/
def Appends (action : Action Listing Unit Unit) (bytes : List UInt8) : Prop :=
  forall listing, action listing =
    (if bytes.length <= listing.capacity - listing.written.length then .ok () else .error (),
      { listing with
        written := listing.written ++ bytes.take (listing.capacity - listing.written.length) })

theorem appends_byte (byte : UInt8) : Appends (appendDirListingByte byte) [byte] := by
  intro listing
  unfold appendDirListingByte
  by_cases full : listing.written.length ≥ listing.capacity
  · rw [if_pos full, Nat.sub_eq_zero_of_le full, take_zero, append_nil]
    rfl
  · have room : 1 <= listing.capacity - listing.written.length := by omega
    rw [if_neg full, take_of_length_le room]
    exact congrArg (fun outcome => (outcome, _)) (if_pos room).symm

theorem Appends.bind {first second : Action Listing Unit Unit} {front back : List UInt8}
    (before : Appends first front) (after : Appends second back) :
    Appends (first >>= fun _ => second) (front ++ back) := by
  intro listing
  rw [run_bind, before listing]
  by_cases fits : front.length <= listing.capacity - listing.written.length
  · rw [if_pos fits]
    dsimp only
    rw [after, take_append, take_of_length_le fits, append_assoc]
    simp only [length_append]
    congr 2 <;> grind
  · rw [if_neg fits, take_append_of_le_length (by omega), if_neg]
    rw [length_append]
    omega

theorem appends_each {Item : Type} {body : Item -> Action Listing Unit Unit}
    {bytes : Item -> List UInt8} (one : ∀ item, Appends (body item) (bytes item))
    (items : List Item) : Appends (each body items) (items.flatMap bytes) := by
  induction items with
  | nil =>
    intro listing
    rw [flatMap_nil, take_nil, append_nil]
    rfl
  | cons item rest ih => exact (one item).bind ih

theorem appends_bytes (bytes : List UInt8) : Appends (appendDirListingBytes bytes) bytes := by
  have each := appends_each appends_byte bytes
  rw [flatMap_singleton'] at each
  exact each

theorem lowDigits_eq : lowDigits value = (Nat.digits 10 value).map digit := by
  induction value using Nat.strongRecOn with
  | ind value ih =>
    rw [lowDigits]
    split
    · next some =>
        rw [ih _ (Nat.div_lt_self some (by decide)), Nat.digits_def' (by decide) some, map_cons]
    · next none => rw [Nat.eq_zero_of_not_pos none, Nat.digits_zero, map_nil]

theorem appends_u64 : Appends (appendDirListingU64 value) (decimalBytes value) := by
  unfold appendDirListingU64 decimalBytes
  split
  · exact appends_byte _
  · rw [lowDigits_eq]
    exact appends_bytes _

theorem appends_entry (entry : DirEntryInfo) : Appends (appendEntry entry) (record entry) :=
  (appends_byte _).bind ((appends_byte _).bind ((appends_bytes _).bind ((appends_byte _).bind
    ((appends_u64 _).bind (appends_byte _)))))

/-- The buffer holds the records up to the byte where it ends. -/
theorem sysFsListDir_eq (capacity : Nat) :
    sysFsListDir entries capacity = (records entries).take capacity :=
  congrArg (fun ran => ran.2.written) (appends_each appends_entry entries ⟨capacity, []⟩)

theorem cut_unique {mark : UInt8} {first second front back : List UInt8} (plain : mark ∉ first)
    (other : mark ∉ second) (same : first ++ mark :: front = second ++ mark :: back) :
    first = second ∧ front = back := by
  induction first generalizing second with
  | nil => cases second <;> grind
  | cons byte rest ih => cases second <;> grind

theorem digit_value {value : Nat} (small : value < 10) :
    (digit value - 48).toNat = value ∧ digit value ≠ newline := by
  revert value
  decide

theorem decimal_injective {value other : Nat} (same : decimalBytes value = decimalBytes other) :
    value = other := by
  have read (value : Nat) :
      Nat.ofDigits 10 ((decimalBytes value).reverse.map fun byte => (byte - 48).toNat) = value := by
    unfold decimalBytes
    split
    · next zero => exact zero.symm
    · rw [reverse_reverse, map_map, map_congr_left, map_id, Nat.ofDigits_digits]
      exact fun one listed => (digit_value (Nat.digits_lt_base (by decide) listed)).1
  rw [<- read value, same, read other]

theorem newline_not_mem_decimal : newline ∉ decimalBytes value := by
  unfold decimalBytes
  split
  · decide
  · rw [mem_reverse, mem_map]
    rintro ⟨one, listed, same⟩
    exact (digit_value (Nat.digits_lt_base (by decide) listed)).2 same

/-- Two listings of entries whose names have no tab are the same only for the same entries. -/
theorem records_injective {entries others : List DirEntryInfo}
    (plain : ∀ entry ∈ entries ++ others, tab ∉ entry.name)
    (same : records entries = records others) : entries = others := by
  induction entries generalizing others with
  | nil => cases others with
    | nil => rfl
    | cons => cases same
  | cons entry rest ih => cases others with
    | nil => cases same
    | cons other more =>
      rw [records, records, flatMap_cons, flatMap_cons, record, record] at same
      simp only [cons_append, append_assoc, cons.injEq, true_and, nil_append] at same
      rcases same with ⟨kind, same⟩
      rcases cut_unique (plain entry (by simp)) (plain other (by simp)) same with ⟨name, same⟩
      rcases cut_unique (newline_not_mem_decimal _) (newline_not_mem_decimal _) same with
        ⟨size, same⟩
      have tail := ih (fun entry listed => plain entry (by grind)) same
      have head : entry = other := by
        cases entry
        cases other
        grind [decimal_injective]
      rw [head, tail]

/-- The records are whole when all of them fit or the buffer ends where a record ends, and
they can be read back. -/
theorem sysFsListDir_whole_iff (entries : List DirEntryInfo) (capacity : Nat) :
    ((Exists fun count => sysFsListDir entries capacity = records (entries.take count)) <->
      (records entries).length <= capacity ∨
        Exists fun count => (records (entries.take count)).length = capacity) ∧
    forall count others, (∀ entry ∈ others ++ entries, tab ∉ entry.name) ->
      sysFsListDir entries capacity = records (entries.take count) ->
      records others = sysFsListDir entries capacity -> others = entries.take count := by
  rw [sysFsListDir_eq]
  refine ⟨⟨fun ⟨count, whole⟩ => ?_, fun ends => ?_⟩, fun count others plain whole same => ?_⟩
  · by_cases fits : (records entries).length <= capacity
    · exact .inl fits
    · refine .inr ⟨count, ?_⟩
      rw [<- whole, length_take]
      omega
  · rcases ends with fits | ⟨count, ends⟩
    · exact ⟨entries.length, by rw [take_of_length_le fits, take_length]⟩
    · refine ⟨count, ?_⟩
      have cut : records entries = records (entries.take count) ++ records (entries.drop count) := by
        rw [records, records, records, <- flatMap_append, take_append_drop]
      rw [cut, <- ends, take_left]
  · refine records_injective (fun entry listed => plain entry ?_) (same.trans whole)
    exact (mem_append.mp listed).elim (mem_append_left _) fun old =>
      mem_append_right _ (mem_of_mem_take old)

/-- Two empty files, with records of six bytes. -/
def twoFiles : List DirEntryInfo := [⟨[97], false, 0⟩, ⟨[98], false, 0⟩]

/-- The second record is cut. -/
theorem sysFsListDir_cut : sysFsListDir twoFiles 10 = [70, 9, 97, 9, 48, 10, 70, 9, 98, 9] ∧
    forall count, sysFsListDir twoFiles 10 ≠ records (twoFiles.take count) := by
  refine ⟨by decide, fun count => ?_⟩
  match count with
  | 0 => decide
  | 1 => decide
  | more + 2 =>
    rw [take_of_length_le (Nat.le_add_left 2 more)]
    decide

end CoolOs.Files
