import CoolOs.Text.Strings

namespace CoolOs.Http1

open List

open Text (ascii)

/-!
# Requests of HTTP/1.1

A strict reader of requests: lines end in CRLF and have no other CR or LF, the request
line has three parts, fields have a token as their name and no control bytes in their
value, and `Content-Length` says how many bytes of body follow.  `parseRequest_wire`
is about requests written field by field, `parseRequest_sound` about everything the
reader accepts.
-/

def isTokenByte (byte : UInt8) : Bool :=
  (48 <= byte && byte <= 57) || (65 <= byte && byte <= 90) || (97 <= byte && byte <= 122) ||
    (ascii "!#$%&'*+-.^_`|~").contains byte

/-- Neither a control byte nor a space. -/
def isVisible (byte : UInt8) : Bool := 0x20 < byte && byte != 0x7f

/-- Not a control byte, but for the tab. -/
def isFieldByte (byte : UInt8) : Bool := (0x20 <= byte && byte != 0x7f) || byte == 9

def isBlank (byte : UInt8) : Bool := byte == 32 || byte == 9

def isToken (bytes : List UInt8) : Bool := !bytes.isEmpty && bytes.all isTokenByte

def isTarget (bytes : List UInt8) : Bool := !bytes.isEmpty && bytes.all isVisible

/-- A value as a reader gives it: without control bytes and blanks around it. -/
def isFieldValue (bytes : List UInt8) : Bool :=
  bytes.all isFieldByte && Text.strip isBlank bytes == bytes

def lower (byte : UInt8) : UInt8 := if 65 <= byte ∧ byte <= 90 then byte + 32 else byte

structure Field where
  name : List UInt8
  value : List UInt8
  deriving DecidableEq

structure Request where
  method : List UInt8
  target : List UInt8
  fields : List Field
  body : List UInt8
  deriving DecidableEq

def takeLine : List UInt8 -> Option (List UInt8 × List UInt8)
  | [] => none
  | byte :: rest =>
    if byte = 13 then if rest.head? = some 10 then some ([], rest.tail) else none
    else if byte = 10 then none
    else (takeLine rest).map (fun (line, rest) => (byte :: line, rest))

def parseRequestLine (line : List UInt8) : Option (List UInt8 × List UInt8) :=
  match Text.splitOnce [32] line with
  | none => none
  | some (method, rest) =>
    match Text.splitOnce [32] rest with
    | none => none
    | some (target, version) =>
      if isToken method && isTarget target && version == ascii "HTTP/1.1" then
        some (method, target)
      else none

def parseField (line : List UInt8) : Option Field :=
  match Text.splitOnce [58] line with
  | none => none
  | some (name, value) =>
    if isToken name && value.all isFieldByte then some ⟨name, Text.strip isBlank value⟩
    else none

/-- The fields up to the empty line. -/
def parseFields : Nat -> List UInt8 -> Option (List Field × List UInt8)
  | 0, _ => none
  | fuel + 1, bytes =>
    match takeLine bytes with
    | none => none
    | some ([], rest) => some ([], rest)
    | some (line, rest) =>
      match parseField line, parseFields fuel rest with
      | some field, some (fields, rest) => some (field :: fields, rest)
      | _, _ => none

/-- The values of the fields of a name, which is in lower case. -/
def valuesOf (name : List UInt8) (fields : List Field) : List (List UInt8) :=
  (fields.filter (fun field => field.name.map lower == name)).map Field.value

def parseDecimal (bytes : List UInt8) : Option Nat :=
  let chars := bytes.map (fun byte => Char.ofNat byte.toNat)
  if !chars.isEmpty && chars.all Char.isDigit then some (Nat.ofDigitChars 10 chars 0) else none

/-- The length of the body.  A request in chunks is none that this reader accepts. -/
def bodyLength (fields : List Field) : Option Nat :=
  if valuesOf (ascii "transfer-encoding") fields = [] then
    match valuesOf (ascii "content-length") fields with
    | [] => some 0
    | [value] => parseDecimal value
    | _ => none
  else none

def parseBody (method target : List UInt8) (fields : List Field) (bytes : List UInt8) :
    Option (Request × List UInt8) :=
  match bodyLength fields with
  | none => none
  | some length =>
    if bytes.length < length then none
    else some (⟨method, target, fields, bytes.take length⟩, bytes.drop length)

/-- A request, and the bytes that follow it. -/
def parseRequest (bytes : List UInt8) : Option (Request × List UInt8) :=
  match takeLine bytes with
  | none => none
  | some (line, rest) =>
    match parseRequestLine line, parseFields rest.length rest with
    | some (method, target), some (fields, rest) => parseBody method target fields rest
    | _, _ => none

variable {field : Field} {bytes rest method target : List UInt8} {fields : List Field}
  {byte : UInt8}

theorem parseField_sound {line : List UInt8} (parsed : parseField line = some field) :
    isFieldValue field.value = true := by
  rw [parseField] at parsed
  split at parsed
  · cases parsed
  next name value _ =>
    split at parsed
    next valid =>
      cases parsed
      have clean := (Bool.and_eq_true_iff.mp valid).2
      refine Bool.and_eq_true_iff.mpr ⟨?_, beq_iff_eq.mpr (Text.strip_strip isBlank value)⟩
      refine all_eq_true.mpr fun byte listed => ?_
      exact all_eq_true.mp clean byte ((Text.strip_sublist isBlank value).subset listed)
    next => cases parsed

theorem parseFields_sound (fuel : Nat) (parsed : parseFields fuel bytes = some (fields, rest)) :
    ∀ field ∈ fields, isFieldValue field.value = true := by
  induction fuel generalizing bytes fields with
  | zero => cases parsed
  | succ fuel ih =>
    rw [parseFields] at parsed
    split at parsed
    · cases parsed
    · cases parsed
      nofun
    · split at parsed
      next field fields rest one others =>
        cases parsed
        refine forall_mem_cons.mpr ⟨parseField_sound one, ih others⟩
      next => cases parsed

/-- A request that is read has a target without control bytes and spaces, and values
without control bytes and blanks around them. -/
theorem parseRequest_sound {request : Request}
    (parsed : parseRequest bytes = some (request, rest)) :
    isTarget request.target = true ∧ ∀ field ∈ request.fields, isFieldValue field.value = true := by
  rw [parseRequest] at parsed
  split at parsed
  · cases parsed
  next line after _ =>
    split at parsed
    next method target fields following head block =>
      rw [parseBody] at parsed
      split at parsed
      · cases parsed
      · split at parsed
        · cases parsed
        · cases parsed
          refine ⟨?_, parseFields_sound _ block⟩
          rw [parseRequestLine] at head
          split at head
          · cases head
          · split at head
            · cases head
            · split at head
              next valid =>
                cases head
                exact (Bool.and_eq_true_iff.mp (Bool.and_eq_true_iff.mp valid).1).2
              next => cases head
    next => cases parsed

theorem isFieldValue_of_mem_valuesOf (name : List UInt8) {value : List UInt8}
    (valid : ∀ field ∈ fields, isFieldValue field.value = true)
    (listed : value ∈ valuesOf name fields) : isFieldValue value = true := by
  rcases mem_map.mp listed with ⟨field, kept, rfl⟩
  exact valid field (mem_filter.mp kept).1

def Field.line (field : Field) : List UInt8 := field.name ++ 58 :: 32 :: field.value

/-- The fields, each on its line, and the empty line. -/
def wireFields (fields : List Field) : List UInt8 :=
  fields.flatMap (fun field => field.line ++ [13, 10]) ++ [13, 10]

def requestLine (method target : List UInt8) : List UInt8 :=
  method ++ 32 :: target ++ 32 :: ascii "HTTP/1.1"

def wire (method target : List UInt8) (fields : List Field) (body : List UInt8) : List UInt8 :=
  requestLine method target ++ 13 :: 10 :: wireFields fields ++ body

/-- The same bytes with the end of the line before each field. -/
theorem wire_eq (method target : List UInt8) (fields : List Field) (body : List UInt8) :
    wire method target fields body = requestLine method target ++
      fields.flatMap (fun field => 13 :: 10 :: field.line) ++ [13, 10, 13, 10] ++ body := by
  have shifted : 13 :: 10 :: wireFields fields =
      fields.flatMap (fun field => 13 :: 10 :: field.line) ++ [13, 10, 13, 10] := by
    induction fields with
    | nil => rfl
    | cons field fields ih =>
      rw [flatMap_cons, append_assoc, <- ih]
      simp only [wireFields, flatMap_cons, append_assoc, cons_append, nil_append]
  rw [wire, shifted]
  simp only [append_assoc]

/-- A field whose line is read as one field. -/
def Field.isClean (field : Field) : Bool := isToken field.name && field.value.all isFieldByte

def Field.stripped (field : Field) : Field :=
  { field with value := Text.strip isBlank field.value }

theorem takeLine_append {line : List UInt8} (inside : ∀ byte ∈ line, byte ≠ 13 ∧ byte ≠ 10)
    (rest : List UInt8) : takeLine (line ++ 13 :: 10 :: rest) = some (line, rest) := by
  induction line with
  | nil => rfl
  | cons byte line ih =>
    have here := inside byte mem_cons_self
    rw [cons_append, takeLine, if_neg here.1, if_neg here.2,
      ih fun other listed => inside other (mem_cons_of_mem byte listed)]
    rfl

theorem every_byte {holds : UInt8 -> Prop} (small : ∀ code : Fin 256, holds (.ofNat code))
    (byte : UInt8) : holds byte := by
  have here := small ⟨byte.toNat, byte.toNat_lt⟩
  rwa [UInt8.ofNat_toNat] at here

theorem isVisible_of_isTokenByte (byte : UInt8) :
    isTokenByte byte = true -> isVisible byte = true := by
  revert byte
  exact every_byte (by decide +kernel)

theorem isFieldByte_of_isVisible (byte : UInt8) :
    isVisible byte = true -> isFieldByte byte = true := by
  revert byte
  exact every_byte (by decide +kernel)

theorem ne_ends_of_isFieldByte (byte : UInt8) :
    isFieldByte byte = true -> byte ≠ 13 ∧ byte ≠ 10 := by
  revert byte
  exact every_byte (by decide +kernel)

theorem isFieldByte_of_isToken (token : isToken bytes = true) (listed : byte ∈ bytes) :
    isFieldByte byte = true :=
  isFieldByte_of_isVisible byte (isVisible_of_isTokenByte byte
    (all_eq_true.mp (Bool.and_eq_true_iff.mp token).2 byte listed))

theorem not_mem_of_isToken (token : isToken bytes = true) (other : isTokenByte byte = false) :
    byte ∉ bytes := by
  intro listed
  have here := all_eq_true.mp (Bool.and_eq_true_iff.mp token).2 byte listed
  rw [other] at here
  cases here

theorem parseRequestLine_requestLine (token : isToken method = true)
    (visible : isTarget target = true) :
    parseRequestLine (requestLine method target) = some (method, target) := by
  have unspaced : (32 : UInt8) ∉ target := by
    intro listed
    have here := all_eq_true.mp (Bool.and_eq_true_iff.mp visible).2 32 listed
    cases here
  rw [parseRequestLine, requestLine, append_assoc, cons_append,
    Text.splitOnce_append (not_mem_of_isToken token (by decide))]
  dsimp only
  rw [Text.splitOnce_append unspaced]
  dsimp only
  rw [if_pos]
  rw [token, visible]
  exact beq_self_eq_true _

theorem parseField_line (clean : field.isClean = true) :
    parseField field.line = some field.stripped := by
  rcases Bool.and_eq_true_iff.mp clean with ⟨token, valid⟩
  rw [parseField, Field.line, Text.splitOnce_append (not_mem_of_isToken token (by decide))]
  dsimp only
  rw [if_pos]
  · rfl
  · rw [token, all_cons, valid]
    rfl

theorem line_inside (clean : field.isClean = true) :
    ∀ byte ∈ field.line, byte ≠ 13 ∧ byte ≠ 10 := by
  rcases Bool.and_eq_true_iff.mp clean with ⟨token, valid⟩
  intro byte listed
  rcases mem_append.mp listed with named | rest
  · exact ne_ends_of_isFieldByte byte (isFieldByte_of_isToken token named)
  · rcases mem_cons.mp rest with rfl | rest
    · decide
    · rcases mem_cons.mp rest with rfl | rest
      · decide
      · exact ne_ends_of_isFieldByte byte (all_eq_true.mp valid byte rest)

theorem parseFields_wireFields (clean : ∀ field ∈ fields, field.isClean = true)
    (rest : List UInt8) {fuel : Nat} (enough : fields.length < fuel) :
    parseFields fuel (wireFields fields ++ rest) = some (fields.map Field.stripped, rest) := by
  induction fields generalizing fuel with
  | nil =>
    cases fuel with
    | zero => cases enough
    | succ fuel => rfl
  | cons field fields ih =>
    cases fuel with
    | zero => cases enough
    | succ fuel =>
      have here := clean field mem_cons_self
      have later := ih (fun other listed => clean other (mem_cons_of_mem field listed))
        (Nat.lt_of_succ_lt_succ enough)
      have cut : wireFields (field :: fields) ++ rest =
          field.line ++ 13 :: 10 :: (wireFields fields ++ rest) := by
        simp only [wireFields, flatMap_cons, append_assoc, cons_append, nil_append]
      have filled : field.line ≠ [] := by
        rw [Field.line]
        exact append_ne_nil_of_right_ne_nil _ (cons_ne_nil _ _)
      rw [parseFields, cut, takeLine_append (line_inside here)]
      rcases exists_cons_of_ne_nil filled with ⟨first, others, written⟩
      rw [written]
      dsimp only
      rw [<- written, parseField_line here, later]
      rfl

theorem length_lt_wireFields (fields : List Field) :
    fields.length < (wireFields fields).length := by
  induction fields with
  | nil => decide
  | cons field fields ih =>
    rw [wireFields, length_append] at ih ⊢
    rw [flatMap_cons, length_append, length_append, length_cons]
    have ending : ([13, 10] : List UInt8).length = 2 := rfl
    omega

/-- A request written with a token, a target and clean fields is read as it was written,
but for the blanks around the values. -/
theorem parseRequest_wire (token : isToken method = true) (visible : isTarget target = true)
    (clean : ∀ field ∈ fields, field.isClean = true) (body : List UInt8) :
    parseRequest (wire method target fields body) =
      parseBody method target (fields.map Field.stripped) body := by
  have inside : ∀ byte ∈ requestLine method target, byte ≠ 13 ∧ byte ≠ 10 := by
    intro byte listed
    refine ne_ends_of_isFieldByte byte ?_
    rcases mem_append.mp listed with front | version
    · rcases mem_append.mp front with named | spaced
      · exact isFieldByte_of_isToken token named
      · rcases mem_cons.mp spaced with rfl | targeted
        · rfl
        · exact isFieldByte_of_isVisible byte
            (all_eq_true.mp (Bool.and_eq_true_iff.mp visible).2 byte targeted)
    · have literal : (32 :: ascii "HTTP/1.1").all isFieldByte = true := by decide
      exact all_eq_true.mp literal byte version
  have enough : fields.length < (wireFields fields ++ body).length := by
    rw [length_append]
    exact Nat.lt_of_lt_of_le (length_lt_wireFields fields) (Nat.le_add_right _ _)
  rw [parseRequest, wire, append_assoc, cons_append, cons_append, takeLine_append inside]
  dsimp only
  rw [parseRequestLine_requestLine token visible, parseFields_wireFields clean body enough]

/-! ## Values of fields -/

variable {name key : List UInt8}

theorem valuesOf_append (name : List UInt8) (first second : List Field) :
    valuesOf name (first ++ second) = valuesOf name first ++ valuesOf name second := by
  rw [valuesOf, filter_append, map_append]
  rfl

theorem valuesOf_cons_same (same : (key.map lower == name) = true) (value : List UInt8)
    (fields : List Field) :
    valuesOf name (⟨key, value⟩ :: fields) = value :: valuesOf name fields := by
  rw [valuesOf, filter_cons, if_pos same]
  rfl

theorem valuesOf_cons_other (other : (key.map lower == name) = false) (value : List UInt8)
    (fields : List Field) : valuesOf name (⟨key, value⟩ :: fields) = valuesOf name fields := by
  rw [valuesOf, filter_cons, if_neg (Bool.eq_false_iff.mp other)]
  rfl

theorem valuesOf_stripped (name : List UInt8) (fields : List Field) :
    valuesOf name (fields.map Field.stripped) =
      (valuesOf name fields).map (Text.strip isBlank) := by
  rw [valuesOf, filter_map, map_map, valuesOf, map_map]
  rfl

theorem encode_digit {char : Char} (digit : char.isDigit = true) :
    ∃ byte, String.utf8EncodeChar char = [byte] ∧ Char.ofNat byte.toNat = char ∧
      isVisible byte = true := by
  have bounds : 48 <= char.val ∧ char.val <= 57 := by simpa [Char.isDigit] using digit
  have large : 48 <= char.val.toNat := UInt32.le_iff_toNat_le.mp bounds.1
  have small : char.val.toNat <= 57 := UInt32.le_iff_toNat_le.mp bounds.2
  have code : (UInt8.ofNat char.val.toNat).toNat = char.val.toNat := by
    rw [UInt8.toNat_ofNat']
    exact Nat.mod_eq_of_lt (by omega)
  refine ⟨UInt8.ofNat char.val.toNat, ?_, ?_, ?_⟩
  · rw [String.utf8EncodeChar.eq_1, if_pos (by omega)]
  · rw [code]
    exact Char.ofNat_toNat char
  · rw [isVisible, Bool.and_eq_true_iff, decide_eq_true_eq, bne_iff_ne, UInt8.lt_iff_toNat_lt, code]
    refine ⟨Nat.lt_of_lt_of_le (by decide) large, fun same => ?_⟩
    rw [same] at code
    change 127 = _ at code
    omega

/-- Decimal digits are read as they were written, and are visible. -/
theorem encode_digits {chars : Text} (digits : ∀ char ∈ chars, char.isDigit = true) :
    (Text.encode chars).map (fun byte => Char.ofNat byte.toNat) = chars ∧
      (Text.encode chars).all isVisible = true := by
  induction chars with
  | nil => exact ⟨rfl, rfl⟩
  | cons char chars ih =>
    have rest := ih fun other listed => digits other (mem_cons_of_mem char listed)
    rcases encode_digit (digits char mem_cons_self) with ⟨byte, coded, same, visible⟩
    rw [Text.encode, flatMap_cons, coded, singleton_append, map_cons, same, all_cons, visible]
    exact ⟨congrArg (fun others => char :: others) rest.1, rest.2⟩

theorem isDigit_toDigits {number : Nat} (char : Char) (listed : char ∈ Nat.toDigits 10 number) :
    char.isDigit = true := Nat.isDigit_of_mem_toDigits (by decide) (by decide) listed

theorem parseDecimal_toDigits (number : Nat) :
    parseDecimal (Text.encode (Nat.toDigits 10 number)) = some number := by
  rw [parseDecimal, (encode_digits isDigit_toDigits).1, if_pos]
  · rw [Nat.ofDigitChars_toDigits (by decide) (by decide)]
  · refine Bool.and_eq_true_iff.mpr ⟨?_, all_eq_true.mpr isDigit_toDigits⟩
    rw [Nat.toDigits_eq_if (by decide)]
    split <;> simp

theorem isFieldValue_of_visible (visible : bytes.all isVisible = true) :
    isFieldValue bytes = true := by
  have each := all_eq_true.mp visible
  have unblank : ∀ byte : UInt8, isVisible byte = true -> isBlank byte = false :=
    every_byte (by decide +kernel)
  refine Bool.and_eq_true_iff.mpr ⟨?_, beq_iff_eq.mpr ?_⟩
  · exact all_eq_true.mpr fun byte listed => isFieldByte_of_isVisible byte (each byte listed)
  · exact Text.strip_of_none fun byte listed => unblank byte (each byte listed)

end CoolOs.Http1
