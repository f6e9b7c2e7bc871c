/-
# The client of the administration service

A line of the operator is cut at its spaces, the words become an octet and the
parameters of a request, and these the message that is sent.  What is printed is
left out, and so is the reply.
-/
import Pop3Proxy.Admin.AdminNio

namespace Pop3Proxy

open Traced

/-- What the client does with its arrays. -/
inductive ClientAccess where
  /-- `input_buffer[i]` is assigned -/
  | word (i : ℕ)
  /-- `parameters[i]` is assigned -/
  | parameter (i : ℕ)
  /-- `buffer[i]` is assigned -/
  | message (i : ℕ)
  deriving DecidableEq, Repr

/-- A pointer is followed that is NULL or was left by an earlier line. -/
inductive ClientFault where
  | undefined
  deriving DecidableEq, Repr

/-- Code of the client. -/
abbrev ClientM := Traced ClientAccess ClientFault

/-- `char buffer[MAX_BUFFER+1]`, and the string that `char temporary_buffer[1000]` holds. -/
structure ClientMemory where
  octets : List Byte
  size : octets.length = maxBuffer + 1
  line : List Byte
  short : line.length < 1000

/-- The access stays within the array: 6 words, 5 parameters, and the message. -/
def ClientAccess.Inside : ClientAccess → Prop
  | .word i => i < 6
  | .parameter i => i < 5
  | .message i => i < maxBuffer + 1

/-! ## The line -/

/-- `fgets(temporary_buffer, n, stdin)`: at the end of the input the array stays as it is. -/
def fgets (n : ℕ) (stdin temporary : List Byte) : List Byte :=
  if stdin = [] then temporary
  else (stdin.takeWhile (· ≠ LF) ++ if LF ∈ stdin then [LF] else []).take (n - 1)

/-- What `strtok(…, " ")` returns, up to the NULL. -/
def words (line : List Byte) : List (List Byte) := ((cstr line).splitOn SP).filter (· ≠ [])

/-- The string that `strtok` leaves in the array: a NUL ends the first word. -/
def strtokLeft (line : List Byte) : List Byte :=
  (cstr line).takeWhile (· = SP) ++ ((cstr line).dropWhile (· = SP)).takeWhile (· ≠ SP)

/-! ## The encoders -/

/-- `argv[i]` -/
def argument (argv : List (List Byte)) (i : ℕ) : ClientM (List Byte) :=
  match argv[i]? with
  | some w => pure w
  | none => fail .undefined

/-- `parameters[*size] = w; (*size)++` -/
def addParameter (parameters : List (List Byte)) (w : List Byte) : ClientM (List (List Byte)) := do
  note (.parameter parameters.length)
  pure (parameters ++ [w])

/-- The octet of the request and the parameters, or `-1`. -/
abbrev Encoded := Byte × List (List Byte)

/-- `return -1` -/
def invalid : ClientM Encoded := pure (0xFF, [])

/-- `sock_encoder` -/
def sockEncoder (argv : List (List Byte)) (argc : ℕ) (byte : Byte) : ClientM Encoded := do
  let w ← argument argv 1
  if w = ascii "status" then
    if argc < 6 then pure (byte, []) else do
      let w ← argument argv 2
      if w = ascii "origin" then pure (byte, [])
      else if w = ascii "local" then pure (byte ||| 0x04, [])
      else invalid
  else if w = ascii "mod" then
    if argc ≠ 5 then pure (byte, []) else do
      let byte := byte ||| 0x10
      let w ← argument argv 2
      if w ≠ ascii "local" ∧ w ≠ ascii "origin" then invalid else do
        let byte := if w = ascii "local" then byte ||| 0x04 else byte
        let w ← argument argv 3
        if w ≠ ascii "address" ∧ w ≠ ascii "port" then invalid else do
          let byte := if w = ascii "address" then byte ||| 0x01 else byte
          let w ← argument argv 4
          let parameters ← addParameter [] w
          pure (byte, parameters)
  else pure (byte, [])

/-- The loop of `ban`. -/
def addTypes : List (List Byte) → List (List Byte) → ClientM (List (List Byte))
  | [], parameters => pure parameters
  | w :: ws, parameters => do
    let parameters ← addParameter parameters w
    addTypes ws parameters

/-- `trans_encoder` -/
def transEncoder (argv : List (List Byte)) (argc : ℕ) (byte : Byte) : ClientM Encoded := do
  let w ← argument argv 1
  if w = ascii "status" then
    if 2 < argc then invalid else pure (byte, [])
  else if w = ascii "mod" then
    if argc < 5 then pure (byte, []) else do
      let byte := byte ||| 0x10
      let w ← argument argv 2
      if w = ascii "general" then do
        let w ← argument argv 3
        if w = ascii "replace" then do
          let w ← argument argv 4
          let parameters ← addParameter [] w
          let w ← argument argv 5
          let parameters ← addParameter parameters w
          pure (byte, parameters)
        else invalid
      else if w = ascii "mime" then do
        let byte := byte ||| 0x04
        let w ← argument argv 3
        if w = ascii "ban" then do
          let parameters ← addTypes (argv.drop 4) []
          pure (byte, parameters)
        else invalid
      else invalid
  else pure (byte, [])

/-- `metrics_encoder` -/
def metricsEncoder (argv : List (List Byte)) (byte : Byte) : ClientM Encoded := do
  let w ← argument argv 1
  if w = ascii "bytes\n" then pure (byte, [])
  else if w = ascii "access\n" then pure (byte ||| 0x90, [])
  else if w = ascii "conections\n" then pure (byte ||| 0xA0, [])
  else invalid

/-- `encode_request` -/
def encodeRequest (argv : List (List Byte)) (argc : ℕ) : ClientM Encoded := do
  let w ← argument argv 0
  if w = ascii "sock" then sockEncoder argv argc 0
  else if w = ascii "trans" then transEncoder argv argc 0x40
  else if w = ascii "metrics" then metricsEncoder argv 0x80
  -- `config_encoder` returns the octet it is given
  else if w = ascii "config" then pure (0xC0, [])
  else invalid

/-! ## The message -/

/-- The loop that copies the parameters behind the first two octets. -/
def copyParameters : List (List Byte) → ℕ → List Byte → ClientM (List Byte)
  | [], _, buffer => pure buffer
  | s :: ss, pointer, buffer => do
    notes ((List.range' pointer (s.length + 1)).map .message)
    copyParameters ss (pointer + s.length + 1) (splice buffer pointer (s ++ [0]))

/-- The first `MAX_BUFFER` octets of `buffer` are what is sent. -/
def composeMessage (ebyte : Byte) (parameters : List (List Byte)) (m : ClientMemory) :
    ClientM (List Byte) := do
  notes [.message 0, .message 1]
  let buffer := (m.octets.set 0 ebyte).set 1 (UInt8.ofNat parameters.length)
  let buffer ← copyParameters parameters 2 buffer
  pure (buffer.take maxBuffer)

/-- One round of the loop of `main`: the message, unless the line is no command. -/
def clientRound (stdin : List Byte) (m : ClientMemory) : ClientM (Option (List Byte)) := do
  let argv := words (fgets 1000 stdin m.line)
  -- the first word is stored even when it is NULL
  let argc := max 1 argv.length
  notes ((List.range argc).map .word)
  let (ebyte, parameters) ← encodeRequest argv argc
  if ebyte = 0xFF then pure none else do
    let message ← composeMessage ebyte parameters m
    pure (some message)

/-- The line has room for its NUL. -/
theorem length_fgets {temporary : List Byte} (h : temporary.length < 1000) (stdin : List Byte) :
    (fgets 1000 stdin temporary).length ≤ 999 := by
  rw [fgets]
  split_ifs
  · exact Nat.le_of_lt_succ h
  all_goals exact List.length_take_le 999 _

/-- What `strtok` leaves of a line is not longer. -/
theorem length_strtokLeft (line : List Byte) : (strtokLeft line).length ≤ line.length := by
  have hword := (List.takeWhile_prefix (· ≠ SP) (l := (cstr line).dropWhile (· = SP))).length_le
  have hall :=
    congrArg List.length (List.takeWhile_append_dropWhile (p := (· = SP)) (l := cstr line))
  have hline : (cstr line).length ≤ line.length := (List.takeWhile_prefix _).length_le
  rw [List.length_append] at hall
  rw [strtokLeft, List.length_append]
  omega

/-- A message that is cleared keeps its length. -/
theorem length_clearedMessage :
    (List.replicate (maxBuffer + 1) (0 : Byte)).length = maxBuffer + 1 :=
  List.length_replicate

/-- The arrays after a round: the message is cleared. -/
def ClientMemory.after (m : ClientMemory) (stdin : List Byte) : ClientMemory where
  octets := List.replicate (maxBuffer + 1) 0
  size := length_clearedMessage
  line := strtokLeft (fgets 1000 stdin m.line)
  short := by
    have hleft := length_strtokLeft (fgets 1000 stdin m.line)
    have hline := length_fgets m.short stdin
    omega

end Pop3Proxy
