import LinuxBuild.CJsonParse
import LinuxBuild.FallibleStep

/-!
# The JSON printer

`cJSON_Print` writes into a buffer that grows, `cJSON_PrintPreallocated` into one that does not.
A write or a `strlen` that leaves the buffer is a fault. Memory that was never written holds
bytes that are not known.
-/
namespace CJsonPrint
open CString CJsonParse FallibleStep

/-- What the printer asks of a `double`: `isnan` and `isinf`, the comparison with the `int`, the
two `sprintf`, `sscanf` and `compare_double`. -/
structure Printing (D : Type) extends Doubles D where
  isFinite : D → Bool
  equalsInt : D → Int32 → Bool
  g15 : D → CStr
  g17 : D → CStr
  sscanf : CStr → Option D
  compareDouble : D → D → Bool

/-- What a print is given: its hooks, and which allocations succeed with what in the memory -/
structure PrintEnv (D : Type) where
  numbers : Printing D
  format : Bool
  noalloc : Bool
  hasReallocate : Bool
  allocate : Nat → Bool
  fresh : Nat → Nat → UInt8

/-- `printbuffer`; its `length` is that of the memory. -/
structure PrintBuffer where
  buffer : Option (List UInt8)
  offset : Nat
  depth : Nat
  heap : Heap

def intMax : Nat := 2147483647

variable {D : Type} (env : PrintEnv D)

/-- The memory of a new block -/
def freshBlock (asked size : Nat) : List UInt8 := (List.range size).map (env.fresh asked)

/-- `hooks.allocate` -/
def malloc (h : Heap) (size : Nat) : Option (List UInt8) × Heap :=
  if env.allocate h.asked then (some (freshBlock env h.asked size), ⟨h.asked + 1, h.live + 1⟩)
  else (none, ⟨h.asked + 1, h.live⟩)

/-- `hooks.reallocate`: without the memory the old block is still there. -/
def realloc (h : Heap) (memory : List UInt8) (size : Nat) : Option (List UInt8) × Heap :=
  let grown := memory.take size ++ (freshBlock env h.asked size).drop memory.length
  (if env.allocate h.asked then some grown else none, ⟨h.asked + 1, h.live⟩)

/-- The end of `ensure`, from the new size on -/
def grow (newsize : Nat) (memory : List UInt8) : Step PrintBuffer := fun p =>
  let (newbuffer, heap) := if env.hasReallocate then realloc env p.heap memory newsize
    else malloc env p.heap newsize
  match newbuffer with
  | none => do
    let heap ← heap.free 1
    some (false, { p with buffer := none, heap := heap })
  | some newbuffer =>
    if env.hasReallocate then some (true, { p with buffer := some newbuffer, heap := heap })
    else if p.offset < memory.length then do
      let heap ← heap.free 1
      let copied := memory.take (p.offset + 1) ++ newbuffer.drop (p.offset + 1)
      some (true, { p with buffer := some copied, heap := heap })
    else none

/-- `ensure` -/
def ensure (needed : Nat) : Step PrintBuffer := fun p =>
  match p.buffer with
  | none => some (false, p)
  | some memory =>
    if 0 < memory.length ∧ memory.length ≤ p.offset then some (false, p)
    else if intMax < needed then some (false, p)
    else
      let needed := needed + (p.offset + 1)
      if needed ≤ memory.length then some (true, p)
      else if env.noalloc then some (false, p)
      else if intMax / 2 < needed then
        if needed ≤ intMax then grow env intMax memory p else some (false, p)
      else grow env (needed * 2) memory p

/-- A write at a place of some memory -/
def writeAt (memory : List UInt8) (place : Nat) (bytes : List UInt8) : Option (List UInt8) :=
  if place + bytes.length ≤ memory.length then
    some (memory.take place ++ bytes ++ memory.drop (place + bytes.length))
  else none

/-- Writes at the output pointer, and `offset += n` -/
def store (bytes : List UInt8) (n : Nat) : Step PrintBuffer := fun p => do
  let memory ← p.buffer
  let memory ← writeAt memory p.offset bytes
  some (true, { p with buffer := some memory, offset := p.offset + n })

/-- `ensure`, and what is written to the pointer that it returns -/
def emit (needed : Nat) (bytes : List UInt8) (n : Nat) : Step PrintBuffer :=
  (ensure env needed).andThen (store bytes n)

/-- `update_offset`: there is a terminator behind the offset. -/
def updateOffset : Step PrintBuffer := fun p =>
  match p.buffer with
  | none => some (true, p)
  | some memory =>
    let text := cstringAt (memory.drop p.offset)
    if p.offset + text.length < memory.length then
      some (true, { p with offset := p.offset + text.length })
    else none

/-- A text with its terminator -/
def emitTerminated (text : List UInt8) : Step PrintBuffer :=
  emit env (text.length + 1) (text ++ [0]) text.length

def deeper : Step PrintBuffer := fun p => some (true, { p with depth := p.depth + 1 })

def shallower : Step PrintBuffer := fun p => some (true, { p with depth := p.depth - 1 })

section Numbers
variable (numbers : Printing D)

/-- What is written to `number_buffer` -/
def numberText (valuedouble : D) (valueint : Int32) : CStr :=
  if !numbers.isFinite valuedouble then cstr "null"
  else if numbers.equalsInt valuedouble valueint then decimal valueint
  else
    match numbers.sscanf (numbers.g15 valuedouble) with
    | none => numbers.g17 valuedouble
    | some test =>
      if numbers.compareDouble test valuedouble then numbers.g15 valuedouble
      else numbers.g17 valuedouble

/-- `print_number`: a text that does not fit the 26 bytes of `number_buffer` is a fault. -/
def printNumber (valuedouble : D) (valueint : Int32) : Step PrintBuffer := fun p =>
  let text := numberText env.numbers valuedouble valueint
  if text.length < 26 then emitTerminated env text p else none

end Numbers

section Strings

/-- The letter behind the backslash, where there is one -/
def escapeLetter (c : UInt8) : Option UInt8 :=
  if c = 34 then some 34 else if c = 92 then some 92 else if c = 8 then some 98
  else if c = 12 then some 102 else if c = 10 then some 110 else if c = 13 then some 114
  else if c = 9 then some 116 else none

/-- What a byte adds to `escape_characters` -/
def escapeCost (c : UInt8) : Nat :=
  if (escapeLetter c).isSome then 1 else if c < 32 then 5 else 0

def escapeCharacters (input : CStr) : Nat := (input.map escapeCost).sum

/-- A digit of `%x` -/
def hexDigitOf (d : UInt8) : UInt8 := if d < 10 then 48 + d else 87 + d

/-- `"u%04x"` -/
def unicodeEscape (c : UInt8) : CStr := [117, 48, 48, hexDigitOf (c / 16), hexDigitOf (c % 16)]

/-- The loop that copies a string with its escapes -/
def escapeLoop : CStr → Nat → List UInt8 → Option (List UInt8)
  | [], _, memory => some memory
  | c :: s, output, memory =>
    if 31 < c ∧ c ≠ 34 ∧ c ≠ 92 then do
      let memory ← writeAt memory output [c]
      escapeLoop s (output + 1) memory
    else do
      let memory ← writeAt memory output [92]
      match escapeLetter c with
      | some e => do
        let memory ← writeAt memory (output + 1) [e]
        escapeLoop s (output + 2) memory
      | none => do
        -- `sprintf` puts a terminator behind the sequence
        let memory ← writeAt memory (output + 1) (unicodeEscape c ++ [0])
        escapeLoop s (output + 6) memory

/-- `print_string_ptr` on a string that is not `NULL` -/
def printStringPtr (input : CStr) : Step PrintBuffer :=
  let outputLength := input.length + escapeCharacters input
  (ensure env (outputLength + 3)).andThen fun p => do
    let memory ← p.buffer
    if escapeCharacters input = 0 then do
      let memory ← writeAt memory p.offset [34]
      let memory ← writeAt memory (p.offset + 1) input
      let memory ← writeAt memory (p.offset + outputLength + 1) [34, 0]
      some (true, { p with buffer := some memory })
    else do
      let memory ← writeAt memory p.offset [34]
      let memory ← escapeLoop input (p.offset + 1) memory
      let memory ← writeAt memory (p.offset + outputLength + 1) [34, 0]
      some (true, { p with buffer := some memory })

end Strings

/-- `output_buffer->format ? formatted : plain` -/
def formatted (format : Bool) (bytes plain : List UInt8) : List UInt8 :=
  if format then bytes else plain

def tabs (format : Bool) (depth : Nat) : List UInt8 :=
  formatted format (List.replicate depth 9) []

/-- A text that `more` bytes are asked for behind it -/
def emitText (more : Nat) (text : List UInt8) : Step PrintBuffer :=
  emit env (text.length + more) text text.length

mutual
/-- `print_value` on the kinds that JSON has -/
def printValue : Item D → Step PrintBuffer
  | .null => emit env 5 (cstr "null" ++ [0]) 0
  | .bool false => emit env 6 (cstr "false" ++ [0]) 0
  | .bool true => emit env 5 (cstr "true" ++ [0]) 0
  | .number valuedouble valueint => printNumber env valuedouble valueint
  | .string valuestring => printStringPtr env (cstringAt (valuestring ++ [0]))
  | .array child =>
    -- `print_array`
    (emit env 1 [91] 1).andThen <| deeper.andThen <| (printArrayLoop child).andThen <|
      (emit env 2 [93, 0] 0).andThen shallower
  | .object child =>
    -- `print_object`
    (emitText env 1 (formatted env.format [123, 10] [123])).andThen <| deeper.andThen <|
      (printObjectLoop child).andThen <|
        Step.andThen (fun p => emit env (if env.format then p.depth + 1 else 2)
          (tabs env.format (p.depth - 1) ++ [125, 0]) 0 p) shallower

/-- The loop of `print_array` -/
def printArrayLoop : List (Item D) → Step PrintBuffer
  | [] => done
  | item :: items =>
    (printValue item).andThen <| updateOffset.andThen <|
      (if items.isEmpty then done
        else emitTerminated env (formatted env.format [44, 32] [44])).andThen (printArrayLoop items)

/-- The loop of `print_object` -/
def printObjectLoop : List (List UInt8 × Item D) → Step PrintBuffer
  | [] => done
  | (name, item) :: members =>
    Step.andThen (fun p => if env.format then emitText env 0 (tabs true p.depth) p else done p) <|
      (printStringPtr env (cstringAt (name ++ [0]))).andThen <| updateOffset.andThen <|
        (emitText env 0 (formatted env.format [58, 9] [58])).andThen <|
          (printValue item).andThen <| updateOffset.andThen <|
            (emitTerminated env ((if members.isEmpty then [] else [44]) ++
              formatted env.format [10] [])).andThen (printObjectLoop members)
end

/-- `fail:` in `print` -/
def giveUp (p : PrintBuffer) : Option (Option (List UInt8) × Heap) :=
  match p.buffer with
  | none => some (none, p.heap)
  | some _ => do
    let heap ← p.heap.free 1
    some (none, heap)

/-- The end of `print`: the text moves to a block of its own size. -/
def shrink (p : PrintBuffer) : Option (Option (List UInt8) × Heap) := do
  let memory ← p.buffer
  if env.hasReallocate then
    match realloc env p.heap memory (p.offset + 1) with
    | (none, heap) => giveUp { p with heap := heap }
    | (some printed, heap) => some (some printed, heap)
  else
    match malloc env p.heap (p.offset + 1) with
    | (none, heap) => giveUp { p with heap := heap }
    | (some printed, heap) => do
      let printed ← writeAt printed 0 (memory.take (p.offset + 1))
      let printed ← writeAt printed p.offset [0]
      let heap ← heap.free 1
      some (some printed, heap)

/-- `print` with the blocks held before; `cJSON_Print` and `cJSON_PrintUnformatted` are its two
formats. -/
def print (format : Bool) (item : Item D) (live : Nat) : Option (Option (List UInt8) × Heap) :=
  let env := { env with format := format, noalloc := false }
  match malloc env ⟨0, live⟩ 256 with
  | (none, heap) => some (none, heap)
  | (some memory, heap) => do
    let (printed, p) ← (printValue env item).andThen updateOffset ⟨some memory, 0, 0, heap⟩
    if printed then shrink env p else giveUp p

/-- `cJSON_PrintBuffered` -/
def printBuffered (format : Bool) (item : Item D) (prebuffer : Int32) (live : Nat) :
    Option (Option (List UInt8) × Heap) :=
  let env := { env with format := format, noalloc := false }
  if prebuffer < 0 then some (none, ⟨0, live⟩)
  else
    match malloc env ⟨0, live⟩ prebuffer.toInt.toNat with
    | (none, heap) => some (none, heap)
    | (some memory, heap) => do
      let (printed, p) ← printValue env item ⟨some memory, 0, 0, heap⟩
      if printed then some (p.buffer, p.heap) else giveUp p

/-- `cJSON_PrintPreallocated`, on the first `length` bytes of a buffer that is not `NULL` -/
def printPreallocated (format : Bool) (item : Item D) (buffer : List UInt8) (length : Int32) :
    Option (Bool × List UInt8) :=
  let env := { env with format := format, noalloc := true }
  if length < 0 then some (false, buffer)
  else do
    let p : PrintBuffer := ⟨some (buffer.take length.toInt.toNat), 0, 0, ⟨0, 0⟩⟩
    let (printed, p) ← printValue env item p
    let memory ← p.buffer
    some (printed, memory ++ buffer.drop length.toInt.toNat)

end CJsonPrint
