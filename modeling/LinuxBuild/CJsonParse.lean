import LinuxBuild.CJson

/-!
# The JSON parser

`cJSON_Parse` reads a buffer at an offset. A read behind the end of the buffer is a fault, and
so is a write behind the memory that `parse_string` has allocated. Every allocation may fail;
the blocks that are held are counted. The code points of the escape sequences stay below 2^21,
so they are natural numbers here.
-/
namespace CJsonParse
open CString

/-- An item of one of the kinds that JSON has. A string, which is never `NULL` here, is given
by the bytes in front of its terminator; `cJSON_Raw` and `cJSON_Invalid`, which the parser
does not make, are left out. -/
inductive Item (D : Type) where
  | null
  | bool (b : Bool)
  | number (valuedouble : D) (valueint : Int32)
  | string (valuestring : List UInt8)
  | array (child : List (Item D))
  | object (child : List (List UInt8 × Item D))

/-- `strtod` on a numeral, and what the parser asks of a `double`: whether it is at least
`INT_MAX`, or at most `INT_MIN`, and its conversion to `int`. -/
structure Doubles (D : Type) where
  strtod : CStr → D
  geIntMax : D → Bool
  leIntMin : D → Bool
  toInt : D → Int32

/-- How many blocks are held, and how many have been asked for; which ones they are is not
told. -/
structure Heap where
  asked : Nat
  live : Nat

/-- `parse_buffer` with the heap in place of its hooks; `content` and `length` do not
change. -/
structure ParseBuffer where
  offset : Nat
  depth : Nat
  heap : Heap

/-- What a parse is given: the bytes of the buffer and which allocations succeed. -/
structure Env (D : Type) where
  content : List UInt8
  allocate : Nat → Bool
  doubles : Doubles D

/-- `CJSON_NESTING_LIMIT` -/
def nestingLimit : Nat := 1000

variable {D : Type}

def Heap.free (h : Heap) (blocks : Nat) : Option Heap :=
  if blocks ≤ h.live then some { h with live := h.live - blocks } else none

def ParseBuffer.move (b : ParseBuffer) (n : Nat) : ParseBuffer := { b with offset := b.offset + n }

mutual
/-- The number of blocks that belong to an item beside its own: strings and the items below
it. -/
def Item.owned : Item D → Nat
  | .string _ => 1
  | .array child => ownedItems child
  | .object child => ownedMembers child
  | _ => 0

def ownedItems : List (Item D) → Nat
  | [] => 0
  | item :: items => item.owned + 1 + ownedItems items

/-- A member has a string for its name. -/
def ownedMembers : List (List UInt8 × Item D) → Nat
  | [] => 0
  | (_, item) :: members => item.owned + 2 + ownedMembers members
end

mutual
/-- How deep arrays and objects are nested -/
def Item.nesting : Item D → Nat
  | .array child => nestingItems child + 1
  | .object child => nestingMembers child + 1
  | _ => 0

def nestingItems : List (Item D) → Nat
  | [] => 0
  | item :: items => max item.nesting (nestingItems items)

def nestingMembers : List (List UInt8 × Item D) → Nat
  | [] => 0
  | (_, item) :: members => max item.nesting (nestingMembers members)
end

section Buffer
variable (env : Env D) (b : ParseBuffer)

/-- `hooks.allocate` -/
def allocateBlock : Option ParseBuffer × ParseBuffer :=
  let asked := { b with heap := { b.heap with asked := b.heap.asked + 1 } }
  if env.allocate b.heap.asked then
    (some { asked with heap := { asked.heap with live := b.heap.live + 1 } }, asked)
  else (none, asked)

/-- `cJSON_Delete`, or `hooks.deallocate` of one block -/
def release (blocks : Nat) : Option ParseBuffer := do
  let heap ← b.heap.free blocks
  some { b with heap := heap }

/-- What can be read from the offset on -/
def rest : List UInt8 := env.content.drop b.offset

/-- `can_access_at_index` and the byte there -/
def first : Option UInt8 := (rest env b).head?

/-- `can_read` and `strncmp` with a literal -/
def startsWith (literal : String) : Bool := (cstr literal).isPrefixOf (rest env b)

/-- `buffer_skip_whitespace`: at the end of the buffer it steps back. -/
def bufferSkipWhitespace : ParseBuffer :=
  if env.content.length ≤ b.offset then b
  else
    let offset := b.offset + ((rest env b).takeWhile (· ≤ 32)).length
    { b with offset := if offset = env.content.length then offset - 1 else offset }

/-- `skip_utf8_bom` -/
def skipUtf8Bom : ParseBuffer :=
  if b.offset + 4 < env.content.length ∧ (rest env b).take 3 = [0xEF, 0xBB, 0xBF] then b.move 3
  else b

end Buffer

section Numbers

def digitsLen (s : CStr) : Nat := (s.takeWhile isDigit).length

def signLen (s : CStr) : Nat := if s.head? = some 43 ∨ s.head? = some 45 then 1 else 0

/-- The length of the numeral in front of a text, or 0 -/
def mantissaLen (s : CStr) : Nat :=
  let sign := signLen s
  let whole := digitsLen (s.drop sign)
  let behind := s.drop (sign + whole)
  let fraction := if behind.head? = some 46 then digitsLen behind.tail else 0
  if whole + fraction = 0 then 0
  else sign + whole + (if behind.head? = some 46 then 1 + fraction else 0)

/-- The length of the exponent in front of a text, or 0 -/
def exponentLen (s : CStr) : Nat :=
  if s.head? = some 101 ∨ s.head? = some 69 then
    let sign := signLen s.tail
    let digits := digitsLen (s.tail.drop sign)
    if digits = 0 then 0 else 1 + sign + digits
  else 0

/-- How much of a text `strtod` takes, on the letters of `isNumberChar` -/
def numeralLen (s : CStr) : Nat :=
  if mantissaLen s = 0 then 0 else mantissaLen s + exponentLen (s.drop (mantissaLen s))

def isNumberChar (c : UInt8) : Bool :=
  isDigit c || c = 43 || c = 45 || c = 101 || c = 69 || c = 46

/-- The `int` of a `double`, with saturation -/
def saturate (doubles : Doubles D) (number : D) : Int32 :=
  if doubles.geIntMax number then Int32.maxValue
  else if doubles.leIntMin number then Int32.minValue
  else doubles.toInt number

/-- `parse_number`: 63 characters at most are looked at. -/
def parseNumber (env : Env D) (b : ParseBuffer) : Option (Item D) × ParseBuffer :=
  let text := ((rest env b).take 63).takeWhile isNumberChar
  if numeralLen text = 0 then (none, b)
  else
    let number := env.doubles.strtod (text.take (numeralLen text))
    (some (.number number (saturate env.doubles number)), b.move (numeralLen text))

end Numbers

section Strings
variable (content : List UInt8)

def hexDigit (c : UInt8) : Option Nat :=
  if 48 ≤ c ∧ c ≤ 57 then some (c.toNat - 48)
  else if 65 ≤ c ∧ c ≤ 70 then some (10 + c.toNat - 65)
  else if 97 ≤ c ∧ c ≤ 102 then some (10 + c.toNat - 97)
  else none

/-- The loop of `parse_hex4`; what is no digit makes the result 0. -/
def hexLoop : Nat → Nat → Nat → Option Nat
  | 0, _, h => some h
  | left + 1, place, h => do
    let c ← content[place]?
    match hexDigit c with
    | none => some 0
    | some d => hexLoop left (place + 1) (if 0 < left then (h + d) * 16 else h + d)

def parseHex4 (input : Nat) : Option Nat := hexLoop content 4 input 0

/-- The bytes behind the first one, written from the last one on -/
def utf8Tail : Nat → Nat → List UInt8 → Nat × List UInt8
  | 0, codepoint, out => (codepoint, out)
  | position + 1, codepoint, out =>
    utf8Tail position (codepoint >>> 6) (((codepoint ||| 0x80) &&& 0xBF).toUInt8 :: out)

/-- The end of `utf16_literal_to_utf8` -/
def encodeUtf8 (codepoint : Nat) : Option (List UInt8) :=
  let encode (length mark : Nat) : List UInt8 :=
    let (first, out) := utf8Tail (length - 1) codepoint []
    (if 1 < length then ((first ||| mark) &&& 0xFF).toUInt8 else (first &&& 0x7F).toUInt8) :: out
  if codepoint < 0x80 then some (encode 1 0)
  else if codepoint < 0x800 then some (encode 2 0xC0)
  else if codepoint < 0x10000 then some (encode 3 0xE0)
  else if codepoint ≤ 0x10FFFF then some (encode 4 0xF0)
  else none

/-- `utf16_literal_to_utf8`: the length of the sequence and the bytes that are written -/
def utf16LiteralToUtf8 (inputPointer inputEnd : Nat) : Option (Option (Nat × List UInt8)) :=
  if inputEnd - inputPointer < 6 then some none
  else do
    let firstCode ← parseHex4 content (inputPointer + 2)
    if 0xDC00 ≤ firstCode ∧ firstCode ≤ 0xDFFF then some none
    else if 0xD800 ≤ firstCode ∧ firstCode ≤ 0xDBFF then
      let second := inputPointer + 6
      if inputEnd - second < 6 then some none
      else do
        let backslash ← content[second]?
        let u ← content[second + 1]?
        if backslash ≠ 92 ∨ u ≠ 117 then some none
        else do
          let secondCode ← parseHex4 content (second + 2)
          if secondCode < 0xDC00 ∨ 0xDFFF < secondCode then some none
          else
            let codepoint := 0x10000 + (((firstCode &&& 0x3FF) <<< 10) ||| (secondCode &&& 0x3FF))
            some ((encodeUtf8 codepoint).map fun out => (12, out))
    else some ((encodeUtf8 firstCode).map fun out => (6, out))

/-- The first loop of `parse_string`: how far it is to the closing quote, and how many of the
bytes on the way are skipped. -/
def stringEnd : List UInt8 → Option (Nat × Nat)
  | [] => none
  | c :: s =>
    if c = 34 then some (0, 0)
    else if c = 92 then
      match s with
      | [] => none
      | _ :: s => (stringEnd s).map fun (length, skipped) => (length + 2, skipped + 1)
    else (stringEnd s).map fun (length, skipped) => (length + 1, skipped)

/-- `*output_pointer++ = c`, in a block of `capacity` bytes -/
def put (capacity : Nat) (output bytes : List UInt8) : Option (List UInt8) :=
  if output.length + bytes.length ≤ capacity then some (output ++ bytes) else none

/-- An escape sequence of two characters -/
def shortEscape (c : UInt8) : Option UInt8 :=
  if c = 98 then some 8 else if c = 102 then some 12 else if c = 110 then some 10
  else if c = 114 then some 13 else if c = 116 then some 9
  else if c = 34 ∨ c = 92 ∨ c = 47 then some c else none

/-- An escape sequence: its length and what it stands for -/
def escapeAt (inputPointer inputEnd : Nat) : Option (Option (Nat × List UInt8)) := do
  let c ← content[inputPointer + 1]?
  if c = 117 then utf16LiteralToUtf8 content inputPointer inputEnd
  else some ((shortEscape c).map fun out => (2, [out]))

/-- The second loop of `parse_string`, with its terminator; the result is the output, or none
after a failure, and the input pointer. -/
def unescape (inputEnd capacity : Nat) : Nat → Nat → List UInt8 →
    Option (Option (List UInt8) × Nat)
  | 0, _, _ => none
  | fuel + 1, inputPointer, output =>
    if inputPointer < inputEnd then do
      let c ← content[inputPointer]?
      if c ≠ 92 then do
        let output ← put capacity output [c]
        unescape inputEnd capacity fuel (inputPointer + 1) output
      else
        match ← escapeAt content inputPointer inputEnd with
        | none => some (none, inputPointer)
        | some (length, bytes) => do
          let output ← put capacity output bytes
          unescape inputEnd capacity fuel (inputPointer + length) output
    else do
      let _ ← put capacity output [0]
      some (some output, inputPointer)

end Strings

/-- `parse_string` -/
def parseString (env : Env D) (b : ParseBuffer) :
    Option (Option (List UInt8) × ParseBuffer) := do
  let quote ← env.content[b.offset]?
  if quote ≠ 34 then some (none, b.move 1)
  else
    match stringEnd (rest env (b.move 1)) with
    | none => some (none, b.move 1)
    | some (length, skipped) =>
      let inputEnd := b.offset + 1 + length
      let allocationLength := length + 1 - skipped
      match allocateBlock env b with
      | (none, b) => some (none, b.move 1)
      | (some b, _) => do
        match ← unescape env.content inputEnd (allocationLength + 1) (length + 1) (b.offset + 1)
            [] with
        | (some output, _) => some (some output, { b with offset := inputEnd + 1 })
        | (none, inputPointer) => do
          let b ← release b 1
          some (none, { b with offset := inputPointer })

/-- The failure of a loop over items deletes what it has put together. -/
def failWith (b : ParseBuffer) (blocks : Nat) : Option (Option (Item D) × ParseBuffer) := do
  let b ← release b blocks
  some (none, b)

/-- The end of an array or an object -/
def closeWith (b : ParseBuffer) (item : Item D) : Option (Option (Item D) × ParseBuffer) :=
  some (some item, { b with depth := b.depth - 1, offset := b.offset + 1 })

mutual
/-- `parse_value` -/
def parseValue (env : Env D) : Nat → ParseBuffer → Option (Option (Item D) × ParseBuffer)
  | 0, _ => none
  | fuel + 1, b =>
    if startsWith env b "null" then some (some .null, b.move 4)
    else if startsWith env b "false" then some (some (.bool false), b.move 5)
    else if startsWith env b "true" then some (some (.bool true), b.move 4)
    else
      match first env b with
      | none => some (none, b)
      | some c =>
        if c = 34 then do
          let (output, b) ← parseString env b
          some (output.map .string, b)
        else if c = 45 ∨ 48 ≤ c ∧ c ≤ 57 then some (parseNumber env b)
        else if c = 91 then parseArray env fuel b
        else if c = 123 then parseObject env fuel b
        else some (none, b)

/-- `parse_array` -/
def parseArray (env : Env D) : Nat → ParseBuffer → Option (Option (Item D) × ParseBuffer)
  | 0, _ => none
  | fuel + 1, b =>
    if nestingLimit ≤ b.depth then some (none, b)
    else do
      let b := { b with depth := b.depth + 1 }
      let bracket ← env.content[b.offset]?
      if bracket ≠ 91 then some (none, b)
      else
        let b := bufferSkipWhitespace env (b.move 1)
        match first env b with
        | none => some (none, { b with offset := b.offset - 1 })
        | some c =>
          if c = 93 then closeWith b (.array [])
          else arrayLoop env fuel { b with offset := b.offset - 1 } []

/-- The loop of `parse_array` behind the items `head` -/
def arrayLoop (env : Env D) : Nat → ParseBuffer → List (Item D) →
    Option (Option (Item D) × ParseBuffer)
  | 0, _, _ => none
  | fuel + 1, b, head =>
    match allocateBlock env b with
    | (none, b) => failWith b (ownedItems head)
    | (some b, _) => do
      match ← parseValue env fuel (bufferSkipWhitespace env (b.move 1)) with
      | (none, b) => failWith b (ownedItems head + 1)
      | (some item, b) =>
        let b := bufferSkipWhitespace env b
        if first env b = some 44 then arrayLoop env fuel b (head ++ [item])
        else if first env b = some 93 then closeWith b (.array (head ++ [item]))
        else failWith b (ownedItems (head ++ [item]))

/-- `parse_object` -/
def parseObject (env : Env D) : Nat → ParseBuffer → Option (Option (Item D) × ParseBuffer)
  | 0, _ => none
  | fuel + 1, b =>
    if nestingLimit ≤ b.depth then some (none, b)
    else
      let b := { b with depth := b.depth + 1 }
      if first env b ≠ some 123 then some (none, b)
      else
        let b := bufferSkipWhitespace env (b.move 1)
        match first env b with
        | none => some (none, { b with offset := b.offset - 1 })
        | some c =>
          if c = 125 then closeWith b (.object [])
          else objectLoop env fuel { b with offset := b.offset - 1 } []

/-- The loop of `parse_object` behind the members `head` -/
def objectLoop (env : Env D) : Nat → ParseBuffer → List (List UInt8 × Item D) →
    Option (Option (Item D) × ParseBuffer)
  | 0, _, _ => none
  | fuel + 1, b, head =>
    match allocateBlock env b with
    | (none, b) => failWith b (ownedMembers head)
    | (some b, _) =>
      -- nothing comes after the comma
      if env.content.length ≤ b.offset + 1 then failWith b (ownedMembers head + 1)
      else do
        match ← parseString env (bufferSkipWhitespace env (b.move 1)) with
        | (none, b) => failWith b (ownedMembers head + 1)
        | (some name, b) =>
          let b := bufferSkipWhitespace env b
          if first env b ≠ some 58 then failWith b (ownedMembers head + 2)
          else do
            match ← parseValue env fuel (bufferSkipWhitespace env (b.move 1)) with
            | (none, b) => failWith b (ownedMembers head + 2)
            | (some item, b) =>
              let b := bufferSkipWhitespace env b
              if first env b = some 44 then objectLoop env fuel b (head ++ [(name, item)])
              else if first env b = some 125 then closeWith b (.object (head ++ [(name, item)]))
              else failWith b (ownedMembers (head ++ [(name, item)]))
end

/-- What a parse returns: the item, the position of `global_error` after a failure, and the
buffer. -/
structure Parsed (D : Type) where
  item : Option (Item D)
  error : Option Nat
  buffer : ParseBuffer

/-- `fail:` in `cJSON_ParseWithLengthOpts` -/
def parseFailed (env : Env D) (b : ParseBuffer) : Parsed D where
  item := none
  error := some (if b.offset < env.content.length then b.offset
    else if 0 < env.content.length then env.content.length - 1 else 0)
  buffer := b

/-- `cJSON_ParseWithLengthOpts` on a buffer that is not `NULL`, with the blocks held before -/
def parseWithLengthOpts (env : Env D) (fuel live : Nat) (requireNullTerminated : Bool) :
    Option (Parsed D) :=
  let b : ParseBuffer := ⟨0, 0, ⟨0, live⟩⟩
  if env.content.length = 0 then some (parseFailed env b)
  else
    match allocateBlock env b with
    | (none, b) => some (parseFailed env b)
    | (some b, _) => do
      match ← parseValue env fuel (bufferSkipWhitespace env (skipUtf8Bom env b)) with
      | (none, b) => do
        let b ← release b 1
        some (parseFailed env b)
      | (some item, b) =>
        if requireNullTerminated then
          let b := bufferSkipWhitespace env b
          if first env b ≠ some 0 then do
            let b ← release b (item.owned + 1)
            some (parseFailed env b)
          else some ⟨some item, none, b⟩
        else some ⟨some item, none, b⟩

/-- `cJSON_Parse`: the terminator belongs to the buffer. -/
def parse (doubles : Doubles D) (allocate : Nat → Bool) (fuel live : Nat) (value : CStr) :
    Option (Parsed D) :=
  parseWithLengthOpts ⟨value ++ [0], allocate, doubles⟩ fuel live false

end CJsonParse
