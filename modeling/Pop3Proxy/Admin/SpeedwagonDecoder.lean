/-
# The decoder of administration requests

`decode_request` and the decoders behind it.  The parameters are the strings
`request_read` has parsed; without any of them the pointer to the parameters is
one that was never assigned.  What is printed is left out.
-/
import Pop3Proxy.Basic
import Pop3Proxy.Library.Traced

namespace Pop3Proxy

open Traced

/-- What `request_read` and the decoders do with memory. -/
inductive Access where
  /-- `buffer[i]` is read -/
  | read (i : ℕ)
  /-- `buffer[i]` is assigned -/
  | write (i : ℕ)
  /-- `parameters[i]` is assigned -/
  | build (i : ℕ)
  /-- `parameters[i]` is followed -/
  | use (i : ℕ)
  /-- `types[i]` is assigned, where `realloc` gave that many octets -/
  | types (i reserved : ℕ)
  /-- a pointer is followed that is NULL or was never assigned -/
  | wild
  deriving DecidableEq, Repr

/-- How handling a request can fail to return. -/
inductive AdminFault where
  /-- memory ends before the string does -/
  | segmentation
  /-- a pointer that is NULL or was never assigned -/
  | undefined
  deriving DecidableEq, Repr

/-- Code of the administration service. -/
abbrev AdminM := Traced Access AdminFault

/-- What outlives a request: two variables of the environment, and a counter. -/
structure Globals where
  filterMedias : Option (List Byte)
  filterMsg : Option (List Byte)
  totalBytesTransfered : ℕ
  deriving DecidableEq, Repr

/-- `','` -/
abbrev COMMA : Byte := 44

/-- A pointer that points nowhere is followed. -/
def wildPointer {α : Type} : AdminM α := do
  note .wild
  fail .undefined

/-- The string of `parameters[i]` -/
def parameterAt (parameters : List (List Byte)) (i : ℕ) : AdminM (List Byte) := do
  note (.use i)
  match parameters[i]? with
  | some s => pure s
  | none => fail .undefined

/-! ## `trans_decoder` -/

/-- The loop that reserves `types`: the lengths of the parameters, and what
`realloc` was asked for last. -/
def reserveTypes (parameters : List (List Byte)) :
    ℕ → ℕ → ℕ → Option ℕ → AdminM (ℕ × Option ℕ)
  | 0, _, wordSize, types => pure (wordSize, types)
  | k + 1, i, wordSize, _ => do
    let s ← parameterAt parameters i
    let wordSize := wordSize + s.length
    reserveTypes parameters k (i + 1) wordSize (some (wordSize + 1))

/-- The loop that fills `types`. -/
def fillTypes (parameters : List (List Byte)) (size reserved : ℕ) :
    ℕ → ℕ → ℕ → List Byte → AdminM (List Byte)
  | 0, _, _, types => pure types
  | k + 1, i, pointer, types => do
    let s ← parameterAt parameters i
    notes ((List.range' pointer (s.length + 1)).map fun j => .types j reserved)
    let types := splice types pointer (s ++ [0])
    let pointer := pointer + s.length + 1
    note (.types (pointer - 1) reserved)
    let types := types.set (pointer - 1) (if size ≤ i + 1 then 0 else COMMA)
    fillTypes parameters size reserved k (i + 1) pointer types

/-- `01.01.01.00 = BAN` -/
def ban (parameters : List (List Byte)) (size : ℕ) (g : Globals) : AdminM (Byte × Globals) := do
  let total := g.totalBytesTransfered + 2
  let (wordSize, types) ← reserveTypes parameters size 0 0 none
  match types with
  | none => wildPointer
  | some reserved =>
    let types ← fillTypes parameters size reserved size 0 0 []
    pure (0x80, { filterMedias := some (cstr types)
                  filterMsg := some (ascii " !____MENSAJE DE REEMPLAZO_____! ")
                  totalBytesTransfered := total + wordSize })

/-- `trans_decoder` -/
def transDecoder (ebyte : Byte) (parameters : List (List Byte)) (size : ℕ) (g : Globals) :
    AdminM (Byte × Globals) :=
  if ebyte = 0x40 then
    -- without the variable, `printf` is given no argument for its "%s"
    if g.filterMedias.isSome then pure (0x80, g) else wildPointer
  else if ebyte &&& 0x50 = 0x50 then
    if ebyte &&& 0x5C = 0x50 then
      if ebyte = 0x50 then pure (0x00, g) else pure (0x80, g)
    else if ebyte &&& 0x54 = 0x54 then
      if ebyte = 0x54 then ban parameters size g else pure (0x80, g)
    else pure (0x80, g)
  else pure (0x80, g)

/-! ## The other decoders -/

/-- `fill_byte` -/
def fillByte (value : Byte) : Byte := if value = 0 then 0x00 else 0x80

/-- `sock_decoder` -/
def sockDecoder (ebyte : Byte) (parameters : List (List Byte)) : AdminM Byte :=
  if ebyte &&& 0x30 = 0x00 then pure 0x80
  else if ebyte &&& 0x30 = 0x10 then
    if ebyte &&& 0x0C = 0x00 then
      if ebyte &&& 0x01 = 0x00 then do
        -- the first octet, which is NUL in an empty string
        let s ← parameterAt parameters 0
        let c := s.headD 0
        pure (if 57 < c ∨ c < 48 then 0x00 else 0x80)
      else pure 0x00
    else if ebyte &&& 0x0C = 0x04 then
      if ebyte &&& 0x01 = 0x00 then pure 0x00 else pure (fillByte 0)
    else pure 0x80
  else pure 0x80

/-- `metrics_decoder` -/
def metricsDecoder (ebyte : Byte) (g : Globals) : Byte × Globals :=
  (if ebyte = 0x80 ∨ ebyte = 0x90 ∨ ebyte = 0xA0 then 0x80 else 0x00,
    { g with totalBytesTransfered := g.totalBytesTransfered + 2 })

/-- `config_decoder` -/
def configDecoder (_ebyte : Byte) : AdminM Byte := pure 0x80

/-- `decode_request`: what `config_decoder` returns is lost, and `unset` is what
`response` holds when it was not assigned. -/
def decodeRequest (ebyte : Byte) (parameters : List (List Byte)) (size : ℕ) (unset : Byte)
    (g : Globals) : AdminM (Byte × Globals) :=
  if ebyte &&& 0xC0 = 0x00 then do
    let response ← sockDecoder ebyte parameters
    pure (response, g)
  else if ebyte &&& 0xC0 = 0x40 then transDecoder ebyte parameters size g
  else if ebyte &&& 0xC0 = 0x80 then pure (metricsDecoder ebyte g)
  else do
    let _ ← configDecoder ebyte
    pure (unset, g)

end Pop3Proxy
