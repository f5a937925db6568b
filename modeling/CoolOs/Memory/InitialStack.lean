import Mathlib.Data.List.Induction
import CoolOs.Memory.Elf

namespace CoolOs.Memory

open Function List

/-!
# The initial stack page

Strings and words are pushed below each other, so no byte is written twice.  The check
counts the strings and the pointers, but neither what the alignment of the stack pointer
takes nor the padding word, so the last pushes can land below the page.
-/

/-- Writes at different addresses of a range. -/
structure Within (low high : Nat) (writes : List (Nat × UInt8)) : Prop where
  inside : ∀ write ∈ writes, low <= write.1 ∧ write.1 < high
  distinct : (writes.map Prod.fst).Nodup

variable {writes : List (Nat × UInt8)} {argv : List (List UInt8)} {rsp addr : Nat}

/-- A push below earlier ones. -/
theorem Within.append {low middle high : Nat} {more : List (Nat × UInt8)}
    (above : Within middle high writes) (below : Within low middle more) (bottom : low <= middle)
    (top : middle <= high) : Within low high (writes ++ more) := by
  refine ⟨fun write listed => ?_, ?_⟩
  · rcases mem_append.mp listed with early | late
    · exact ⟨Nat.le_trans bottom (above.inside write early).1, (above.inside write early).2⟩
    · exact ⟨(below.inside write late).1, Nat.lt_of_lt_of_le (below.inside write late).2 top⟩
  · rw [map_append, nodup_append']
    refine ⟨above.distinct, below.distinct, fun address early late => ?_⟩
    rcases mem_map.mp early with ⟨write, listed, rfl⟩
    rcases mem_map.mp late with ⟨other, also, same⟩
    have high := (above.inside write listed).1
    have low := (below.inside other also).2
    omega

/-- The bytes of a block at an address. -/
def place (addr : Nat) (block : List UInt8) : List (Nat × UInt8) :=
  block.zipIdx.map (fun (entry : UInt8 × Nat) => (addr + entry.2, entry.1))

theorem place_within (addr : Nat) (block : List UInt8) :
    Within addr (addr + block.length) (place addr block) := by
  have addresses : (place addr block).map Prod.fst = range' addr block.length := by
    have places := congrArg (List.map (addr + ·)) (zipIdx_map_snd 0 block)
    rw [map_map, map_add_range'] at places
    rw [place, map_map]
    exact places
  refine ⟨fun write listed => ?_, addresses ▸ nodup_range'⟩
  have member : write.1 ∈ range' addr block.length := addresses ▸ mem_map_of_mem listed
  simpa using member

/-- Push blocks from the last to the first. -/
def pushBlocks (rsp : Nat) : List (List UInt8) -> Nat × List (Nat × UInt8)
  | [] => (rsp, [])
  | block :: rest =>
    ((pushBlocks rsp rest).1 - block.length,
      (pushBlocks rsp rest).2 ++ place ((pushBlocks rsp rest).1 - block.length) block)

/-- The addresses of blocks that lie one after the other. -/
def starts (addr : Nat) : List (List UInt8) -> List Nat
  | [] => []
  | block :: rest => addr :: starts (addr + block.length) rest

theorem pushBlocks_spec {rsp : Nat} {blocks : List (List UInt8)}
    (room : (blocks.map List.length).sum <= rsp) :
    (pushBlocks rsp blocks).1 + (blocks.map List.length).sum = rsp ∧
      Within (pushBlocks rsp blocks).1 rsp (pushBlocks rsp blocks).2 ∧
      ∀ (index start : Nat) (block : List UInt8), blocks[index]? = some block ->
        (starts (pushBlocks rsp blocks).1 blocks)[index]? = some start ->
        ∀ (offset : Nat) (byte : UInt8), block[offset]? = some byte ->
          (start + offset, byte) ∈ (pushBlocks rsp blocks).2 := by
  induction blocks with
  | nil => exact ⟨by simp [pushBlocks], ⟨nofun, nodup_nil⟩, nofun⟩
  | cons first rest ih =>
    simp only [map_cons, sum_cons] at room ⊢
    rcases ih (by omega) with ⟨sum, within, stored⟩
    simp only [pushBlocks, starts]
    have one := place_within ((pushBlocks rsp rest).1 - first.length) first
    rw [Nat.sub_add_cancel (by omega)] at one ⊢
    refine ⟨by omega, within.append one (by omega) (by omega), ?_⟩
    intro index start block found begins offset byte here
    cases index with
    | zero =>
      cases found
      cases begins
      exact mem_append_right _ (mem_map.mpr ⟨(byte, offset), mem_zipIdx_iff_getElem?.mpr here, rfl⟩)
    | succ index =>
      exact mem_append_left _ (stored index start block found begins offset byte here)

/-- The bytes of a word. -/
def wordBytes (word : Nat) : List UInt8 :=
  (range 8).map (fun index => UInt8.ofNat (word / 256 ^ index))

theorem pushWords_eq (rsp : Nat) (words : List Nat) :
    pushWords rsp words = pushBlocks rsp (words.map wordBytes) := by
  induction words with
  | nil => rfl
  | cons word rest ih =>
    simp only [pushWords, ih]
    rfl

theorem starts_words (addr : Nat) (words : List Nat) {index : Nat} (inside : index < words.length) :
    (starts addr (words.map wordBytes))[index]? = some (addr + 8 * index) := by
  induction words generalizing addr index with
  | nil => cases inside
  | cons word rest ih =>
    cases index with
    | zero => rfl
    | succ index =>
      have later := ih (addr + 8) (Nat.lt_of_succ_lt_succ inside)
      rw [Nat.mul_succ, Nat.add_comm (8 * index) 8, <- Nat.add_assoc]
      exact later

/-- The strings with their terminators. -/
def strings (argv : List (List UInt8)) : List (List UInt8) := argv.map (· ++ [0])

theorem sum_strings (argv : List (List UInt8)) :
    ((strings argv).map List.length).sum = (argv.map (fun arg => arg.length + 1)).sum := by
  simp [strings, comp_def]

theorem pushStrings_eq (room : ((strings argv).map List.length).sum <= rsp) :
    pushStrings rsp argv = ((pushBlocks rsp (strings argv)).1,
      starts (pushBlocks rsp (strings argv)).1 (strings argv),
      (pushBlocks rsp (strings argv)).2) := by
  induction argv with
  | nil => rfl
  | cons arg rest ih =>
    have cons : strings (arg :: rest) = (arg ++ [0]) :: strings rest := rfl
    rw [cons, map_cons, sum_cons] at room
    have later := (@pushBlocks_spec rsp (strings rest) (by omega)).1
    simp only [pushStrings, ih (by omega), cons, pushBlocks, starts]
    rw [Nat.sub_add_cancel (by omega)]
    simp only [length_append, length_singleton]
    rfl

/-- The bytes of the page after the writes. -/
def pageAfter (bytes : Nat -> UInt8) (writes : List (Nat × UInt8)) : Nat -> UInt8 :=
  writes.foldl (fun bytes write =>
    Function.update bytes (write.1 - (userStackTop - pageSize)) write.2) bytes

theorem pageAfter_read {bytes : Nat -> UInt8}
    (within : Within (userStackTop - pageSize) userStackTop writes) {byte : UInt8}
    (listed : (addr, byte) ∈ writes) :
    pageAfter bytes writes (addr - (userStackTop - pageSize)) = byte := by
  induction writes using reverseRecOn with
  | nil => cases listed
  | append_singleton writes last ih =>
    rw [pageAfter, foldl_append, foldl_cons, foldl_nil]
    have distinct := within.distinct
    rw [map_append, nodup_append'] at distinct
    rcases mem_append.mp listed with early | late
    · have apart : addr - (userStackTop - pageSize) ≠ last.1 - (userStackTop - pageSize) := by
        have different : addr ≠ last.1 := fun same => distinct.2.2
          (mem_map_of_mem early) (by simp [same])
        have low := (within.inside (addr, byte) listed).1
        have also := (within.inside last (by simp)).1
        omega
      rw [update_of_ne apart]
      exact ih ⟨fun write also => within.inside write (by simp [also]), distinct.1⟩ early
    · cases mem_singleton.mp late
      exact update_self ..

/-- The word that the user reads at an address of the page. -/
def stackWord (page : Nat -> UInt8) (addr : Nat) : Nat :=
  readLe ((range 8).map (fun offset => page (addr + offset - (userStackTop - pageSize)))) 0 8

theorem stackWord_eq {page : Nat -> UInt8} {word : Nat} (small : word < 2 ^ 64)
    (stored : ∀ (offset : Nat) (byte : UInt8), (wordBytes word)[offset]? = some byte ->
      page (addr + offset - (userStackTop - pageSize)) = byte) : stackWord page addr = word := by
  have bytes : (range 8).map (fun offset => page (addr + offset - (userStackTop - pageSize))) =
      wordBytes word :=
    map_congr_left fun offset listed => stored offset _ (by
      simp [wordBytes, mem_range.mp listed])
  rw [stackWord, bytes]
  simp [readLe, wordBytes, range_succ]
  omega

/-- What the program finds: the writes are inside the page, the stack pointer is aligned,
and at it are the number of arguments, a pointer to each string, and two null words. -/
structure StackBuilt (argv : List (List UInt8)) (rsp : Nat) (writes : List (Nat × UInt8))
    (bytes : Nat -> UInt8) : Prop where
  inside : ∀ write ∈ writes,
    userStackTop - pageSize <= write.1 ∧ write.1 < userStackTop
  aligned : rsp % 16 = 0
  argc : stackWord (pageAfter bytes writes) rsp = argv.length
  args : forall (index : Nat) (arg : List UInt8), argv[index]? = some arg ->
    forall (offset : Nat) (byte : UInt8), (arg ++ [0])[offset]? = some byte ->
      pageAfter bytes writes (stackWord (pageAfter bytes writes) (rsp + 8 * (index + 1)) + offset -
        (userStackTop - pageSize)) = byte
  null : stackWord (pageAfter bytes writes) (rsp + 8 * (argv.length + 1)) = 0
  envp : stackWord (pageAfter bytes writes) (rsp + 8 * (argv.length + 2)) = 0

variable (argv)

/-- The strings up to the next multiple of 16, the pointers and the padding word fit. -/
def stackFits : Bool :=
  decide (((argv.map (fun arg => arg.length + 1)).sum + 15) / 16 * 16 +
    (argv.length + 3 + (argv.length + 3) % 2) * 8 <= pageSize)

/-- The words below the strings, from the stack pointer up. -/
def stackWords : List Nat :=
  argv.length :: starts (pushBlocks userStackTop (strings argv)).1 (strings argv) ++ [0, 0] ++
    if (argv.length + 3) % 2 ≠ 0 then [0] else []

@[simp] theorem length_starts (addr : Nat) (argv : List (List UInt8)) :
    (starts addr (strings argv)).length = argv.length := by
  induction argv generalizing addr with
  | nil => rfl
  | cons arg rest ih => exact congrArg Nat.succ (ih _)

theorem length_stackWords : (stackWords argv).length = argv.length + 3 + (argv.length + 3) % 2 := by
  unfold stackWords
  split
  · simp
    omega
  · simp
    omega

variable {argv}

/-- What is accepted, and where the pushes end. -/
theorem buildInitialStack_spec (built : buildInitialStack argv = .ok (rsp, writes)) :
    rsp + 8 * (stackWords argv).length =
        (userStackTop - (argv.map (fun arg => arg.length + 1)).sum) / 16 * 16 ∧
      Within rsp userStackTop writes ∧
      (∀ (index word : Nat), (stackWords argv)[index]? = some word ->
        ∀ (offset : Nat) (byte : UInt8), (wordBytes word)[offset]? = some byte ->
          (rsp + 8 * index + offset, byte) ∈ writes) ∧
      ∀ (index start : Nat) (arg : List UInt8), argv[index]? = some arg ->
        (stackWords argv)[index + 1]? = some start ->
        ∀ (offset : Nat) (byte : UInt8), (arg ++ [0])[offset]? = some byte ->
          (start + offset, byte) ∈ writes := by
  unfold buildInitialStack at built
  dsimp only at built
  split at built
  · cases built
  next small =>
  split at built
  · cases built
  rw [<- sum_strings] at small
  simp only [pageSize, Nat.not_lt] at small
  have room : ((strings argv).map List.length).sum <= userStackTop := by
    simp only [userStackTop]
    omega
  rw [pushStrings_eq room] at built
  simp only [pushWords_eq, Except.ok.injEq, Prod.mk.injEq] at built
  have ends : rsp = (pushBlocks ((pushBlocks userStackTop (strings argv)).1 / 16 * 16)
      ((stackWords argv).map wordBytes)).1 := built.1.symm
  have all : writes = (pushBlocks userStackTop (strings argv)).2 ++
      (pushBlocks ((pushBlocks userStackTop (strings argv)).1 / 16 * 16)
        ((stackWords argv).map wordBytes)).2 := built.2.symm
  rw [ends, all]
  have top : userStackTop = 140733194436608 := rfl
  rcases pushBlocks_spec room with ⟨sum, above, stored⟩
  have total : (((stackWords argv).map wordBytes).map List.length).sum =
      8 * (stackWords argv).length := by
    simp [comp_def, wordBytes, Nat.mul_comm]
  have words := length_stackWords argv
  rcases @pushBlocks_spec ((pushBlocks userStackTop (strings argv)).1 / 16 * 16)
    ((stackWords argv).map wordBytes) (by omega) with
    ⟨wordSum, below, wordStored⟩
  rw [total] at wordSum
  refine ⟨?_, ?_, ?_, ?_⟩
  · rw [wordSum, <- sum_strings]
    omega
  · have aligned : Within ((pushBlocks userStackTop (strings argv)).1 / 16 * 16) userStackTop
        (pushBlocks userStackTop (strings argv)).2 :=
      ⟨fun write listed => ⟨by have low := (above.inside write listed).1; omega,
        (above.inside write listed).2⟩, above.distinct⟩
    exact aligned.append below (by omega) (by omega)
  · intro index word found offset byte here
    have inside := (List.getElem?_eq_some_iff.mp found).1
    exact mem_append_right _ (wordStored index _ (wordBytes word) (by simp [found])
      (starts_words _ _ inside) offset byte here)
  · intro index start arg found begins offset byte here
    refine mem_append_left _ (stored index start (arg ++ [0]) (by simp [strings, found]) ?_
      offset byte here)
    have inside := (List.getElem?_eq_some_iff.mp found).1
    simpa [stackWords, getElem?_append, inside] using begins

/-- For every argument list that is accepted: the stack is built in its page if and only if
the strings, aligned, and the words fit into it. -/
theorem initial_stack_built_iff {argv : List (List UInt8)} {rsp : Nat}
    {writes : List (Nat × UInt8)} (built : buildInitialStack argv = .ok (rsp, writes)) :
    (forall bytes, StackBuilt argv rsp writes bytes) <-> stackFits argv = true := by
  rcases buildInitialStack_spec built with ⟨bottom, within, words, pointed⟩
  have length := length_stackWords argv
  have even : (argv.length + 3 + (argv.length + 3) % 2) % 2 = 0 := by omega
  have top : userStackTop = 140733194436608 := rfl
  have base : userStackTop - pageSize = 140733194432512 := rfl
  simp only [stackFits, decide_eq_true_eq, pageSize]
  have first : (rsp, UInt8.ofNat argv.length) ∈ writes := by
    simpa using words 0 argv.length rfl 0 (UInt8.ofNat argv.length) (by simp [wordBytes])
  constructor
  · intro built
    have low := ((built fun _ => 0).inside _ first).1
    omega
  · intro fits bytes
    have page : Within (userStackTop - pageSize) userStackTop writes :=
      ⟨fun write listed => ⟨by have low := (within.inside write listed).1; omega,
        (within.inside write listed).2⟩, within.distinct⟩
    have read : forall (index word : Nat), (stackWords argv)[index]? = some word ->
        word < 2 ^ 64 -> stackWord (pageAfter bytes writes) (rsp + 8 * index) = word :=
      fun index word found small => stackWord_eq small fun offset byte here =>
        pageAfter_read page (words index word found offset byte here)
    refine ⟨page.inside, by omega, read 0 _ rfl (by omega), ?_, ?_, ?_⟩
    · intro index arg found offset byte here
      have inside := (List.getElem?_eq_some_iff.mp found).1
      have listed : index + 1 < (stackWords argv).length := by omega
      have begins := getElem?_eq_getElem listed
      have there := (page.inside _ (pointed index _ arg found begins offset byte here)).2
      rw [read (index + 1) _ begins (by omega)]
      exact pageAfter_read page (pointed index _ arg found begins offset byte here)
    · exact read _ 0 (by simp [stackWords]) (by decide)
    · exact read _ 0 (by simp [stackWords]) (by decide)

/-- A path and three arguments, for which the odd number of words is filled up. -/
theorem initial_stack_built_short : Exists fun rsp => Exists fun writes =>
    buildInitialStack [[0x61], [0x62, 0x63], [0x64], [0x65]] = .ok (rsp, writes) ∧
      forall bytes, StackBuilt [[0x61], [0x62, 0x63], [0x64], [0x65]] rsp writes bytes :=
  ⟨_, _, rfl, (initial_stack_built_iff rfl).mpr (by decide)⟩

/-- A path of one letter and an argument of 4053 bytes are accepted, and the number of
arguments is written 16 bytes below the page. -/
theorem initial_stack_leaves_page : Exists fun rsp => Exists fun writes =>
    buildInitialStack [[0x61], replicate 4053 0x61] = .ok (rsp, writes) ∧
      Exists fun write => write ∈ writes ∧ write.1 = userStackTop - pageSize - 16 := by
  generalize long : replicate 4053 (0x61 : UInt8) = arg
  have length : arg.length = 4053 := by rw [<- long, length_replicate]
  cases built : buildInitialStack [[0x61], arg] with
  | error reason => simp [buildInitialStack, length] at built
  | ok result =>
    rcases buildInitialStack_spec built with ⟨bottom, _, words, _⟩
    rw [length_stackWords] at bottom
    simp [length] at bottom
    refine ⟨_, _, rfl, _, words 0 2 rfl 0 2 (by decide), ?_⟩
    omega

end CoolOs.Memory
