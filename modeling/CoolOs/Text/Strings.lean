import Mathlib.Algebra.GroupWithZero.Nat
import Mathlib.Data.List.DropRight
import Mathlib.Data.List.Flatten

namespace CoolOs

open List Option

abbrev Text : Type := List Char

namespace Text

/-!
# Text and its bytes

Text is a list of characters, and its bytes are its encoding in UTF-8.  Decoding goes
over the bytes once.  Where they are not well formed it gives nothing for the longest
part that some character starts with, or for one byte if there is none.
-/

def encode (text : Text) : List UInt8 := text.flatMap String.utf8EncodeChar

/-- The bytes of a literal. -/
def ascii (text : String) : List UInt8 := encode text.toList

/-- The number of bytes of a text. -/
def len (text : Text) : Nat := (encode text).length

variable {part text : Text} {value : Nat} {high low : UInt8}

theorem encode_append (first second : Text) :
    encode (first ++ second) = encode first ++ encode second := flatMap_append

theorem encode_sublist (within : part.Sublist text) :
    (encode part).Sublist (encode text) := within.flatMap _

/-- A part with as many bytes as the text is all of it. -/
theorem eq_of_len_eq (within : part.Sublist text) (same : len part = len text) : part = text := by
  induction within with
  | slnil => rfl
  | cons char within ih =>
    have shorter := (encode_sublist within).length_le
    have some := char.utf8Size_pos
    simp only [len, encode, flatMap_cons, length_append,
      String.length_utf8EncodeChar] at same shorter
    omega
  | cons_cons char within ih =>
    refine congrArg (fun rest => char :: rest) (ih ?_)
    simp only [len, encode, flatMap_cons, length_append] at same ⊢
    omega

/-- What a first byte beyond ASCII says: the number of bytes that follow, the range of
the first of them, and its share of the character. -/
def lead (first : UInt8) : Option (Nat × UInt8 × UInt8 × Nat) :=
  if 0xc2 <= first ∧ first <= 0xdf then some (1, 0x80, 0xbf, first.toNat - 0xc0)
  else if first = 0xe0 then some (2, 0xa0, 0xbf, 0)
  else if first = 0xed then some (2, 0x80, 0x9f, 0xd)
  else if 0xe1 <= first ∧ first <= 0xef then some (2, 0x80, 0xbf, first.toNat - 0xe0)
  else if first = 0xf0 then some (3, 0x90, 0xbf, 0)
  else if first = 0xf4 then some (3, 0x80, 0x8f, 4)
  else if 0xf1 <= first ∧ first <= 0xf3 then some (3, 0x80, 0xbf, first.toNat - 0xf0)
  else none

/-- Read the bytes that follow the first one, and give the bytes that are left. -/
def follow : Nat -> UInt8 -> UInt8 -> Nat -> List UInt8 -> Option Nat × List UInt8
  | 0, _, _, value, bytes => (some value, bytes)
  | _ + 1, _, _, _, [] => (none, [])
  | more + 1, low, high, value, byte :: rest =>
    if low <= byte ∧ byte <= high then
      follow more 0x80 0xbf (value * 64 + (byte.toNat - 0x80)) rest
    else (none, byte :: rest)

def decodeChar (first : UInt8) (rest : List UInt8) : Option Char × List UInt8 :=
  if first < 0x80 then (some (Char.ofNat first.toNat), rest)
  else
    match lead first with
    | none => (none, rest)
    | some (more, low, high, value) =>
      let (value, rest) := follow more low high value rest
      (value.map Char.ofNat, rest)

/-- The characters of a byte string, and nothing for each malformed part. -/
def decode : Nat -> List UInt8 -> List (Option Char)
  | 0, _ => []
  | _ + 1, [] => []
  | fuel + 1, first :: rest =>
    let (char, rest) := decodeChar first rest
    char :: decode fuel rest

/-- `core::str::from_utf8`. -/
def fromUtf8 (bytes : List UInt8) : Option Text := (decode bytes.length bytes).mapM id

/-- `String::from_utf8_lossy`. -/
def fromUtf8Lossy (bytes : List UInt8) : Text :=
  (decode bytes.length bytes).map (fun char => char.getD (Char.ofNat 0xfffd))

example : fromUtf8Lossy [0x61, 0xe2, 0x82, 0x62, 0xff, 0xf0, 0x9f] =
    'a' :: Char.ofNat 0xfffd :: 'b' :: replicate 2 (Char.ofNat 0xfffd) := by decide

theorem toNat_byte (small : value < 256) : (UInt8.ofNat value).toNat = value := by
  rw [UInt8.toNat_ofNat', Nat.mod_eq_of_lt small]

/-- One more byte of a character. -/
theorem follow_succ (more : Nat) {next : Nat} (rest : List UInt8) (small : next < 64)
    (above : low.toNat <= next + 128) (below : next + 128 <= high.toNat) :
    follow (more + 1) low high value (UInt8.ofNat (next + 128) :: rest) =
      follow more 0x80 0xbf (value * 64 + next) rest := by
  have byte : (UInt8.ofNat (next + 128)).toNat = next + 128 := toNat_byte (by omega)
  rw [follow, if_pos, byte, Nat.add_sub_cancel]
  rw [UInt8.le_iff_toNat_le, UInt8.le_iff_toNat_le, byte]
  exact ⟨above, below⟩

theorem lead_two : ∀ value < 32,
    value < 2 ∨ lead (UInt8.ofNat (value + 192)) = some (1, 0x80, 0xbf, value) := by decide

theorem lead_three : ∀ value < 16, lead (UInt8.ofNat (value + 224)) =
      some (2, if value = 0 then 0xa0 else 0x80, if value = 13 then 0x9f else 0xbf, value) := by
  decide

theorem lead_four : ∀ value < 5, lead (UInt8.ofNat (value + 240)) =
      some (3, if value = 0 then 0x90 else 0x80, if value = 4 then 0x8f else 0xbf, value) := by
  decide

theorem decodeChar_of_lead {first : UInt8} {more : Nat}
    (leads : lead first = some (more, low, high, value)) (large : 128 <= first.toNat)
    (rest : List UInt8) :
    decodeChar first rest =
      ((follow more low high value rest).1.map Char.ofNat, (follow more low high value rest).2) := by
  rw [decodeChar, if_neg, leads]
  rw [UInt8.lt_iff_toNat_lt]
  exact Nat.not_lt.mpr large

/-- A character is decoded from its own bytes, and what follows them is left. -/
theorem decodeChar_encode (char : Char) (rest : List UInt8) : ∃ first more,
      String.utf8EncodeChar char = first :: more ∧
        decodeChar first (more ++ rest) = (some char, rest) := by
  have same : Char.ofNat char.val.toNat = char := Char.ofNat_toNat char
  -- the surrogates are what the bounds of the second byte leave out
  have valid : char.val.toNat < 0xd800 ∨ (0xdfff < char.val.toNat ∧ char.val.toNat < 0x110000) :=
    char.valid
  unfold String.utf8EncodeChar
  generalize char.val.toNat = value at same valid
  have later : ∀ {next : Nat}, next < 64 ->
      (0x80 : UInt8).toNat <= next + 128 ∧ next + 128 <= (0xbf : UInt8).toNat := fun small =>
    ⟨Nat.le_add_left .., Nat.le_of_lt_succ (Nat.add_lt_add_right small 128)⟩
  dsimp only
  split
  · refine ⟨_, [], rfl, ?_⟩
    have byte : (UInt8.ofNat value).toNat = value := toNat_byte (by omega)
    rw [decodeChar, if_pos, byte, same]
    · rfl
    · rw [UInt8.lt_iff_toNat_lt, byte]
      exact Nat.lt_succ_of_le ‹_›
  split
  · refine ⟨_, [_], rfl, ?_⟩
    rw [Nat.mod_eq_of_lt (by omega : value / 64 < 32),
      decodeChar_of_lead ((lead_two _ (by omega)).resolve_left (by omega))
        (by rw [toNat_byte] <;> omega)]
    simp only [cons_append, nil_append]
    rw [follow_succ 0 rest (by omega) (later (by omega)).1 (later (by omega)).2, follow,
      map_some, Nat.div_add_mod', same]
  split
  · have whole : (value / 4096 * 64 + value / 64 % 64) * 64 + value % 64 = value := by omega
    refine ⟨_, [_, _], rfl, ?_⟩
    rw [Nat.mod_eq_of_lt (by omega : value / 4096 < 16),
      decodeChar_of_lead (lead_three _ (by omega)) (by rw [toNat_byte] <;> omega)]
    simp only [cons_append, nil_append]
    rw [follow_succ 1 _ (by omega) (by split <;> simp <;> omega) (by split <;> simp <;> omega),
      follow_succ 0 rest (by omega) (later (by omega)).1 (later (by omega)).2, follow,
      map_some, whole, same]
  · have whole : ((value / 262144 * 64 + value / 4096 % 64) * 64 + value / 64 % 64) * 64 +
        value % 64 = value := by omega
    refine ⟨_, [_, _, _], rfl, ?_⟩
    rw [Nat.mod_eq_of_lt (by omega : value / 262144 < 8),
      decodeChar_of_lead (lead_four _ (by omega)) (by rw [toNat_byte] <;> omega)]
    simp only [cons_append, nil_append]
    rw [follow_succ 2 _ (by omega) (by split <;> simp <;> omega) (by split <;> simp <;> omega),
      follow_succ 1 _ (by omega) (later (by omega)).1 (later (by omega)).2,
      follow_succ 0 rest (by omega) (later (by omega)).1 (later (by omega)).2, follow,
      map_some, whole, same]

theorem decode_encode (text : Text) {fuel : Nat} (enough : (encode text).length <= fuel) :
    decode fuel (encode text) = text.map some := by
  induction text generalizing fuel with
  | nil => cases fuel <;> rfl
  | cons char rest ih =>
    rcases decodeChar_encode char (encode rest) with ⟨first, more, bytes, decoded⟩
    have parts : encode (char :: rest) = first :: (more ++ encode rest) := by
      rw [<- cons_append, <- bytes]
      rfl
    rw [parts] at enough ⊢
    simp only [length_cons, length_append] at enough
    cases fuel with
    | zero => omega
    | succ fuel =>
      rw [decode, decoded]
      dsimp only
      rw [ih (by omega), map_cons]

/-- A text can be read back from its bytes. -/
theorem fromUtf8_encode (text : Text) : fromUtf8 (encode text) = some text := by
  rw [fromUtf8, decode_encode text (Nat.le_refl _)]
  induction text with
  | nil => rfl
  | cons char rest ih =>
    rw [map_cons, mapM_cons, ih]
    rfl

example : fromUtf8 (encode "aé€😀".toList) = some "aé€😀".toList := by decide

/-!
## Operations on strings

The functions of the standard library on `str` that parsers are written with, and the
search for a pattern in a list.
-/

/-- Unicode's `White_Space`. -/
def isWhitespace (char : Char) : Bool :=
  let code := char.toNat
  (0x9 <= code && code <= 0xd) || code == 0x20 || code == 0x85 || code == 0xa0 ||
    code == 0x1680 || (0x2000 <= code && code <= 0x200a) || code == 0x2028 || code == 0x2029 ||
    code == 0x202f || code == 0x205f || code == 0x3000

/-- The items without those at either end that are to go. -/
def strip {Item : Type} (goes : Item -> Bool) (items : List Item) : List Item :=
  (items.dropWhile goes).rdropWhile goes

def trim (text : Text) : Text := strip isWhitespace text
def trimStart (text : Text) : Text := text.dropWhile isWhitespace
def trimStartMatches (char : Char) (text : Text) : Text := text.dropWhile (fun other => other == char)
def trimEndMatches (char : Char) (text : Text) : Text := text.rdropWhile (fun other => other == char)

variable {Item : Type} (goes : Item -> Bool) (items : List Item)

theorem strip_sublist : (strip goes items).Sublist items :=
  ( rdropWhile_prefix goes _).sublist.trans (dropWhile_sublist goes)

theorem dropWhile_strip : (strip goes items).dropWhile goes = strip goes items := by
  refine dropWhile_eq_self_iff.mpr fun some => ?_
  have within := rdropWhile_prefix goes (items.dropWhile goes)
  have first := head_dropWhile_not goes (l := items) (ne_nil_of_length_pos
    (Nat.lt_of_lt_of_le some within.length_le))
  rw [head_eq_getElem, <- within.getElem some] at first
  exact Bool.eq_false_iff.mp first

theorem strip_strip : strip goes (strip goes items) = strip goes items := by
  rw [strip, dropWhile_strip, strip]
  exact rdropWhile_idempotent goes _

theorem strip_of_none {goes : Item -> Bool} {items : List Item}
    (stay : ∀ item ∈ items, goes item = false) : strip goes items = items := by
  have start : items.dropWhile goes = items :=
    dropWhile_eq_self_iff.mpr fun _ gone =>
      Bool.eq_false_iff.mp (stay _ (getElem_mem _)) gone
  rw [strip, start]
  exact rdropWhile_eq_self_iff.mpr fun _ gone =>
    Bool.eq_false_iff.mp (stay _ (getLast_mem _)) gone

def toAsciiLowercase (text : Text) : Text := text.map Char.toLower

def eqIgnoreAsciiCase (first second : Text) : Bool :=
  toAsciiLowercase first == toAsciiLowercase second

def stripPrefix (start text : Text) : Option Text :=
  if start.isPrefixOf text then some (text.drop start.length) else none

section

variable {Item : Type} [DecidableEq Item]

/-- The first position of a pattern. -/
def find (pattern : List Item) : List Item -> Option Nat
  | [] => if pattern = [] then some 0 else none
  | item :: rest =>
    if pattern.isPrefixOf (item :: rest) then some 0
    else (find pattern rest).map (fun position => position + 1)

/-- What stands before and after the first occurrence of a pattern. -/
def splitOnce (pattern items : List Item) : Option (List Item × List Item) :=
  (find pattern items).map (fun position =>
    (items.take position, items.drop (position + pattern.length)))

/-- What stands before and after the last occurrence of an item. -/
def rsplitOnce (item : Item) (items : List Item) : Option (List Item × List Item) :=
  (splitOnce [item] items.reverse).map (fun (after, before) => (before.reverse, after.reverse))

theorem find_fits {pattern items : List Item} {position : Nat}
    (found : find pattern items = some position) : position + pattern.length <= items.length := by
  induction items generalizing position with
  | nil =>
    rw [find] at found
    split at found
    next empty =>
      cases found
      rw [empty]
      exact Nat.le_refl 0
    next => cases found
  | cons item rest ih =>
    rw [find] at found
    split at found
    next starts =>
      cases found
      have inside := ( isPrefixOf_iff_prefix.mp starts).length_le
      omega
    next =>
      rcases map_eq_some_iff.mp found with ⟨later, here, rfl⟩
      have inside := ih here
      rw [length_cons]
      omega

theorem splitOnce_cons (item first : Item) (rest : List Item) :
    splitOnce [item] (first :: rest) = if item = first then some ([], rest)
      else (splitOnce [item] rest).map (fun (before, after) => (first :: before, after)) := by
  rw [splitOnce, find]
  by_cases same : item = first
  · rw [if_pos (by simp [same]), if_pos same]
    rfl
  · rw [if_neg (by simpa using same), if_neg same, splitOnce, Option.map_map, Option.map_map]
    rfl

variable {item : Item}

theorem splitOnce_append {before : List Item} (first : item ∉ before)
    (after : List Item) : splitOnce [item] (before ++ item :: after) = some (before, after) := by
  induction before with
  | nil => rw [nil_append, splitOnce_cons, if_pos rfl]
  | cons other rest ih =>
    rw [mem_cons, not_or] at first
    rw [cons_append, splitOnce_cons, if_neg first.1, ih first.2]
    rfl

theorem splitOnce_sound {items before after : List Item}
    (split : splitOnce [item] items = some (before, after)) : items = before ++ item :: after := by
  induction items generalizing before with
  | nil => cases split
  | cons first rest ih =>
    rw [splitOnce_cons] at split
    split at split
    next same =>
      cases split
      rw [same]
      rfl
    next =>
      rcases map_eq_some_iff.mp split with ⟨⟨front, back⟩, found, same⟩
      cases same
      rw [ih found]
      rfl

theorem not_mem_of_splitOnce {items : List Item}
    (none : splitOnce [item] items = none) : item ∉ items := by
  induction items with
  | nil => exact not_mem_nil
  | cons first rest ih =>
    rw [splitOnce_cons] at none
    split at none
    · cases none
    next other => exact not_or.mpr ⟨other, ih (map_eq_none_iff.mp none)⟩ ∘ mem_cons.mp

end

/-- The lines of a text, without the ends of lines. -/
def lines (text : Text) : List Text :=
  let pieces := text.splitOn '\n'
  let ended := pieces.dropLast.map (fun line =>
    if line.getLast? = some '\r' then line.dropLast else line)
  let last := pieces.getLastD []
  if last.isEmpty then ended else ended ++ [last]

def splitWhitespace (text : Text) : List Text :=
  (text.splitOnP isWhitespace).filter (fun piece => !piece.isEmpty)

/-- The value of decimal digits, if it is below the bound. -/
def parseDigits (bound : Nat) : Nat -> Text -> Option Nat
  | value, [] => some value
  | value, char :: rest =>
    if '0' <= char ∧ char <= '9' then
      let value := value * 10 + (char.toNat - '0'.toNat)
      if value < bound then parseDigits bound value rest else none
    else none

/-- `str::parse` for the unsigned integers of a width. -/
def parseUnsigned (width : Nat) (text : Text) : Option Nat :=
  match text with
  | [] => none
  | '+' :: digits => if digits.isEmpty then none else parseDigits (2 ^ width) 0 digits
  | digits => parseDigits (2 ^ width) 0 digits

/-!
## Lines and words

What `lines` and `splitWhitespace` give: no line holds an end of line and no word holds
white space, and a text that was put together from lines or words is taken apart into
the same ones.
-/

/-- A text without white space. -/
def Solid (word : Text) : Prop := ∀ char ∈ word, isWhitespace char = false

instance (word : Text) : Decidable (Solid word) :=
  decidableBAll (fun char => isWhitespace char = false) word

variable {first second piece text line : Text} {char separator : Char}

theorem Solid.append (start : Solid first) (rest : Solid second) :
    Solid (first ++ second) := fun char within =>
  (mem_append.mp within).elim (start char) (rest char)

variable {start : Text} {word : Text}

theorem Solid.not_mem (solid : Solid word) (blank : isWhitespace char = true) :
    char ∉ word := fun within =>
  Bool.eq_false_iff.mp (solid char within) blank

/-- A line without the carriage return at its end. -/
def chomp (line : Text) : Text := if line.getLast? = some '\r' then line.dropLast else line

theorem chomp_append (solid : Solid start) (rest : Text) :
    chomp (start ++ rest) = start ++ chomp rest := by
  induction rest using reverseRecOn with
  | nil =>
    have stays : start.getLast? ≠ some '\r' := fun ends =>
      solid.not_mem rfl (mem_of_getLast? ends)
    rw [append_nil, chomp, if_neg stays]
    exact (append_nil start).symm
  | append_singleton front last _ =>
    rw [<- append_assoc, chomp, chomp, getLast?_concat, getLast?_concat,
      dropLast_concat, dropLast_concat]
    split
    · rfl
    · rw [append_assoc]

theorem lines_cons (single : '\n' ∉ line) (rest : Text) :
    lines (line ++ '\n' :: rest) = chomp line :: lines rest := by
  have pieces : rest.splitOn '\n' ≠ [] := splitOn_ne_nil '\n' rest
  rcases exists_cons_of_ne_nil pieces with ⟨first, others, shape⟩
  rw [lines, splitOn_append_cons_self_of_not_mem single, lines, shape]
  simp only [dropLast_cons_cons, map_cons, getLastD_cons, cons_append]
  split
  · rfl
  · rfl

/-- Only the end of a text is trimmed if it starts with something else than white space. -/
theorem trim_append (solid : Solid start) (some : start ≠ []) (rest : Text) :
    trim (start ++ rest) = start ++ rest.rdropWhile isWhitespace := by
  rcases exists_cons_of_ne_nil some with ⟨char, more, rfl⟩
  have first : ¬ isWhitespace char = true :=
    Bool.eq_false_iff.mp (solid char mem_cons_self)
  rw [trim, strip, cons_append, dropWhile_cons_of_neg first, <- cons_append]
  induction rest using reverseRecOn with
  | nil =>
    rw [rdropWhile_nil, append_nil]
    exact rdropWhile_eq_self_iff.mpr fun _ =>
      Bool.eq_false_iff.mp (solid _ (getLast_mem _))
  | append_singleton front last ih =>
    rw [<- append_assoc]
    by_cases blank : isWhitespace last = true
    · rw [rdropWhile_concat_pos _ _ _ blank, rdropWhile_concat_pos _ _ _ blank, ih]
    · rw [rdropWhile_concat_neg _ _ _ blank, rdropWhile_concat_neg _ _ _ blank, append_assoc]

theorem parseDigits_append (bound value : Nat) (first second : Text) :
    parseDigits bound value (first ++ second) =
      (parseDigits bound value first).bind (fun value => parseDigits bound value second) := by
  induction first generalizing value with
  | nil => rfl
  | cons char rest ih =>
    rw [cons_append, parseDigits, parseDigits]
    split
    · dsimp only
      split
      · exact ih _
      · rfl
    · rfl

theorem parseDigits_digit {bound value digit : Nat} (small : digit < 10)
    (below : value * 10 + digit < bound) :
    parseDigits bound value [digit.digitChar] = some (value * 10 + digit) := by
  have chars : ∀ digit < 10, ('0' <= digit.digitChar ∧ digit.digitChar <= '9') ∧
        digit.digitChar.toNat - '0'.toNat = digit := by decide
  rw [parseDigits, if_pos (chars digit small).1, (chars digit small).2, if_pos below]
  rfl

/-- A number is read back from its digits. -/
theorem parseDigits_toDigits {bound : Nat} (value : Nat) (below : value < bound) :
    parseDigits bound 0 (Nat.toDigits 10 value) = some value := by
  induction value using Nat.strongRecOn with
  | ind value ih =>
    by_cases small : value < 10
    · rw [Nat.toDigits_of_lt_base small]
      have digit := @parseDigits_digit bound 0 value small (by omega)
      rwa [Nat.zero_mul, Nat.zero_add] at digit
    · rw [Nat.toDigits_of_base_le (by decide) (Nat.not_lt.mp small), parseDigits_append,
        ih (value / 10) (by omega) (by omega), Option.bind_some,
        parseDigits_digit (Nat.mod_lt _ (by decide)) (by omega), Nat.div_add_mod']

theorem parseUnsigned_toDigits {width : Nat} (below : value < 2 ^ width) :
    parseUnsigned width (Nat.toDigits 10 value) = some value := by
  have digits := parseDigits_toDigits value below
  have plain : ∀ rest, Nat.toDigits 10 value ≠ '+' :: rest := fun rest same => by
    have digit : '+'.isDigit = true := Nat.isDigit_of_mem_toDigits (b := 10) (n := value)
      (by decide) (by decide) (same ▸ mem_cons_self)
    cases digit
  unfold parseUnsigned
  split
  · next empty => exact absurd empty Nat.toDigits_ne_nil
  · next rest same => exact absurd same (plain rest)
  · exact digits

end Text
end CoolOs
