/-
# The arguments of the program

`command_line_parser`: a first loop puts the options and what is behind them into two arrays of
ten pointers, and a second loop, which goes on for as long as there are arguments, carries them
out.
-/
import Pop3Proxy.Basic

namespace Pop3Proxy

/-- The strings of `main` that the arguments can change, with 100 octets each. -/
structure Settings where
  proxyAddress : List Byte
  proxyAddressIpv6 : List Byte
  clientPort : List Byte
  adminAddress : List Byte
  adminAddressIpv6 : List Byte
  adminPort : List Byte
  originAddress : List Byte
  originPort : List Byte
  deriving DecidableEq, Repr

/-- What `main` sets before. -/
def Settings.initial : Settings where
  proxyAddress := ascii "0.0.0.0"
  proxyAddressIpv6 := ascii "::1"
  clientPort := ascii "1110"
  adminAddress := ascii "127.0.0.1"
  adminAddressIpv6 := ascii "::1"
  adminPort := ascii "9090"
  originAddress := ascii "127.0.0.1"
  originPort := ascii "110"

/-- How reading the arguments can go wrong. -/
inductive ArgumentFault where
  /-- there is no `options[i]` -/
  | options
  /-- a string is copied that is NULL -/
  | null
  /-- a string is copied to 100 octets that has no room there -/
  | room
  deriving DecidableEq, Repr

/-- The two families of `inet_pton`. -/
inductive Family where
  | inet
  | inet6
  deriving DecidableEq, Repr

/-! ## The loops -/

/-- What `checkArg` returns, and with an option whether something is expected behind it. -/
inductive CheckedArg where
  | valid (required : Bool)
  | invalid
  | address
  deriving DecidableEq, Repr

/-- `checkArg` -/
def checkArg (argument : List Byte) : CheckedArg :=
  if argument.getD 0 0 = DASH then
    let c := argument.getD 1 0
    if c ∈ ascii "elLmMopPt" then .valid true
    else if c ∈ ascii "hv" then .valid false
    else .invalid
  else .address

/-- `options[j]` and `data[j]`, the latter where it is assigned and not NULL. -/
structure Inserted where
  option : List Byte
  data : Option (List Byte)
  deriving DecidableEq, Repr

/-- `strcpy` into 100 octets. -/
def strcpy (s : List Byte) : Except ArgumentFault (List Byte) :=
  if s.length < 100 then .ok s else .error .room

/-- The first loop: the arrays and the address of the origin, and whether every argument is
valid.  Behind the last argument is a NULL. -/
def collect : List (List Byte) → List Inserted → List Byte →
    Except ArgumentFault (Bool × List Inserted × List Byte)
  | [], options, origin => .ok (true, options, origin)
  | a :: rest, options, origin =>
    match checkArg a with
    | .valid required =>
      if 10 ≤ options.length then .error .options
      else if required then
        match rest with
        | [] => .ok (true, options ++ [⟨a, none⟩], origin)
        | d :: rest => collect rest (options ++ [⟨a, some d⟩]) origin
      else collect rest (options ++ [⟨a, none⟩]) origin
    | .invalid => .ok (false, options, origin)
    | .address => do
      let origin ← strcpy a
      collect rest options origin

/-- `data[i]` is copied. -/
def Inserted.copied (o : Inserted) : Except ArgumentFault (List Byte) :=
  match o.data with
  | none => .error .null
  | some d => strcpy d

section
variable (inetPton : Family → List Byte → Bool)

/-- The body of the second loop; with `false` the function returns. -/
def carryOut (o : Inserted) (s : Settings) : Except ArgumentFault (Bool × Settings) :=
  let c := o.option.getD 1 0
  if c ∈ ascii "hv" then .ok (false, s)
  else if c = 108 then do
    let d ← o.copied
    if inetPton .inet d then .ok (true, { s with proxyAddress := d })
    else if inetPton .inet6 d then .ok (true, { s with proxyAddressIpv6 := d })
    else .ok (true, s)
  else if c = 76 then do
    let d ← o.copied
    if inetPton .inet d then .ok (true, { s with adminAddress := d })
    else if inetPton .inet6 d then .ok (true, { s with adminAddressIpv6 := d })
    else .ok (true, s)
  else if c = 111 then do
    let d ← o.copied
    .ok (true, { s with adminPort := d })
  else if c = 112 then do
    let d ← o.copied
    .ok (true, { s with clientPort := d })
  else if c = 80 then do
    let d ← o.copied
    .ok (true, { s with originPort := d })
  -- `-e`, `-m`, `-M` and `-t` only print
  else .ok (true, s)

/-- The second loop: as many rounds as there are arguments, from `options[i]` on. -/
def carryOutFrom (options : List Inserted) : ℕ → ℕ → Settings → Except ArgumentFault (ℕ × Settings)
  | 0, _, s => .ok (1, s)
  | n + 1, i, s =>
    if 10 ≤ i then .error .options else
    match options[i]? with
    | none => carryOutFrom options n (i + 1) s
    | some o => do
      let (goOn, s) ← carryOut inetPton o s
      if goOn then carryOutFrom options n (i + 1) s else .ok (0, s)

/-- `command_line_parser`: what it returns, and the settings. -/
def commandLineParser (argv : List (List Byte)) (s : Settings) :
    Except ArgumentFault (ℕ × Settings) := do
  let (valid, options, origin) ← collect argv [] s.originAddress
  let s := { s with originAddress := origin }
  if valid then carryOutFrom inetPton options argv.length 0 s else .ok (1, s)

end

/-! ## Lines of arguments -/

/-- The options with something behind them. -/
inductive OptionLetter where
  | e | l | L | m | M | o | p | P | t
  deriving DecidableEq, Repr

namespace OptionLetter

/-- The letter itself. -/
def octet : OptionLetter → Byte
  | e => 101
  | l => 108
  | L => 76
  | m => 109
  | M => 77
  | o => 111
  | p => 112
  | P => 80
  | t => 116

/-- The options that set something. -/
def Sets (letter : OptionLetter) : Prop := letter ∈ [l, L, o, p, P]

instance : DecidablePred Sets :=
  fun letter => inferInstanceAs (Decidable (letter ∈ [l, L, o, p, P]))

end OptionLetter

/-- `-h` and `-v` -/
def flagOctet (help : Bool) : Byte := if help then 104 else 118

/-- What arguments are made of: only the first two octets of an option matter. -/
inductive Argument where
  | option (letter : OptionLetter) (more value : List Byte)
  | flag (help : Bool) (more : List Byte)
  | address (a : List Byte) (h : a.getD 0 0 ≠ DASH)

/-- How a line of arguments can end. -/
inductive LineEnding where
  | complete
  | dangling (letter : OptionLetter) (more : List Byte)
  | invalid (a : List Byte) (rest : List (List Byte)) (h : checkArg a = .invalid)

/-- The words of the command line it is written with. -/
def Argument.words : Argument → List (List Byte)
  | option letter more value => [DASH :: letter.octet :: more, value]
  | flag help more => [DASH :: flagOctet help :: more]
  | address a _ => [a]

/-- The words it is written with. -/
def LineEnding.words : LineEnding → List (List Byte)
  | complete => []
  | dangling letter more => [DASH :: letter.octet :: more]
  | invalid a rest _ => a :: rest

/-- The whole line. -/
def lineOf (items : List Argument) (ending : LineEnding) : List (List Byte) :=
  items.flatMap Argument.words ++ ending.words

/-- An option is valid, and something is expected behind it. -/
theorem checkArg_letter (letter : OptionLetter) (more : List Byte) :
    checkArg (DASH :: letter.octet :: more) = .valid true := by
  have hmem : letter.octet ∈ ascii "elLmMopPt" := by cases letter <;> decide
  exact (if_pos rfl).trans (if_pos hmem)

/-- A flag is valid alone. -/
theorem checkArg_flag (help : Bool) (more : List Byte) :
    checkArg (DASH :: flagOctet help :: more) = .valid false := by
  have hnot : flagOctet help ∉ ascii "elLmMopPt" := by cases help <;> decide
  have hmem : flagOctet help ∈ ascii "hv" := by cases help <;> decide
  exact (if_pos rfl).trans ((if_neg hnot).trans (if_pos hmem))

/-- What an argument can be. -/
theorem checkArg_cases (a : List Byte) :
    (∃ letter more, a = DASH :: OptionLetter.octet letter :: more) ∨
      (∃ help more, a = DASH :: flagOctet help :: more) ∨
      checkArg a = .invalid ∨ a.getD 0 0 ≠ DASH := by
  have hletters : ascii "elLmMopPt" = [.e, .l, .L, .m, .M, .o, .p, .P, .t].map OptionLetter.octet :=
    rfl
  have hflags : ascii "hv" = [true, false].map flagOctet := rfl
  by_cases hdash : a.getD 0 0 = DASH
  · match a with
    | [] => cases hdash
    | [x] =>
      obtain rfl : x = DASH := hdash
      exact .inr (.inr (.inl rfl))
    | x :: c :: more =>
      obtain rfl : x = DASH := hdash
      by_cases hletter : c ∈ ascii "elLmMopPt"
      · rw [hletters] at hletter
        obtain ⟨letter, -, rfl⟩ := List.mem_map.mp hletter
        exact .inl ⟨letter, more, rfl⟩
      by_cases hflag : c ∈ ascii "hv"
      · rw [hflags] at hflag
        obtain ⟨help, -, rfl⟩ := List.mem_map.mp hflag
        exact .inr (.inl ⟨help, more, rfl⟩)
      · exact .inr (.inr (.inl ((if_pos rfl).trans ((if_neg hletter).trans (if_neg hflag)))))
  · exact .inr (.inr (.inr hdash))

/-- The first argument of a line. -/
theorem lineOf_cons (item : Argument) (items : List Argument) (ending : LineEnding) :
    lineOf (item :: items) ending = item.words ++ lineOf items ending := by
  rw [lineOf, List.flatMap_cons, List.append_assoc]
  rfl

/-- Every line is made of them. -/
theorem exists_lineOf (argv : List (List Byte)) : ∃ items ending, argv = lineOf items ending := by
  induction hn : argv.length using Nat.strongRecOn generalizing argv with
  | ind n ih =>
    cases argv with
    | nil => exact ⟨[], .complete, rfl⟩
    | cons a rest =>
      rw [List.length_cons] at hn
      rcases checkArg_cases a with ⟨letter, more, rfl⟩ | ⟨help, more, rfl⟩ | hinvalid | haddress
      · cases rest with
        | nil => exact ⟨[], .dangling letter more, rfl⟩
        | cons value rest =>
          obtain ⟨items, ending, rfl⟩ :=
            ih rest.length (by rw [List.length_cons] at hn; omega) rest rfl
          exact ⟨.option letter more value :: items, ending, rfl⟩
      · obtain ⟨items, ending, rfl⟩ := ih rest.length (by omega) rest rfl
        exact ⟨.flag help more :: items, ending, rfl⟩
      · exact ⟨[], .invalid a rest hinvalid, rfl⟩
      · obtain ⟨items, ending, rfl⟩ := ih rest.length (by omega) rest rfl
        exact ⟨.address a haddress :: items, ending, rfl⟩

/-! ## What a line says -/

namespace Argument

/-- What the first loop puts into the arrays. -/
def inserted : Argument → Option Inserted
  | option letter more value => some ⟨DASH :: letter.octet :: more, some value⟩
  | flag help more => some ⟨DASH :: flagOctet help :: more, none⟩
  | address _ _ => none

/-- An address of the origin. -/
def origin : Argument → Option (List Byte)
  | address a _ => some a
  | _ => none

/-- Behind `-h` and `-v` nothing is carried out. -/
def stops : Argument → Bool
  | flag _ _ => true
  | _ => false

/-- What is behind an option. -/
def value (key : OptionLetter) : Argument → Option (List Byte)
  | option letter _ value => if letter = key then some value else none
  | _ => none

/-- A string that is copied when the argument is carried out. -/
def copied : Argument → Option (List Byte)
  | option letter _ value => if letter.Sets then some value else none
  | _ => none

end Argument

/-- What the first loop inserts for it. -/
def LineEnding.inserted : LineEnding → List Inserted
  | dangling letter more => [⟨DASH :: letter.octet :: more, none⟩]
  | _ => []

/-- The first loop gets through. -/
def LineEnding.valid : LineEnding → Bool
  | invalid _ _ _ => false
  | _ => true

/-- Something is to be set, and there is nothing to set it to. -/
def LineEnding.Lacks : LineEnding → Prop
  | dangling letter _ => letter.Sets
  | _ => False

instance : DecidablePred LineEnding.Lacks := fun
  | .complete => inferInstanceAs (Decidable False)
  | .dangling letter _ => inferInstanceAs (Decidable letter.Sets)
  | .invalid _ _ _ => inferInstanceAs (Decidable False)

/-- The arguments before the first that stops. -/
def untilStop (items : List Argument) : List Argument := items.takeWhile fun item => !item.stops

/-- The arguments that are carried out. -/
def carriedOut (items : List Argument) (ending : LineEnding) : List Argument :=
  if ending.valid then untilStop items else []

/-- **What can be read**: ten options, and strings that have room where they are copied.  Where
nothing stops the second loop, there are ten arguments, and what would be set is there. -/
structure Readable (items : List Argument) (ending : LineEnding) : Prop where
  options : (items.filterMap Argument.inserted ++ ending.inserted).length ≤ 10
  origins : ∀ a ∈ items.filterMap Argument.origin, a.length < 100
  values : ∀ v ∈ (carriedOut items ending).filterMap Argument.copied, v.length < 100
  loop : ending.valid = true → items.any Argument.stops = false →
    (lineOf items ending).length ≤ 10 ∧ ¬ ending.Lacks

/-- What is returned, which `main` does not look at. -/
def returned (items : List Argument) (ending : LineEnding) : ℕ :=
  if ending.valid && items.any Argument.stops then 0 else 1

section
variable (inetPton : Family → List Byte → Bool)

/-- **The settings**: of each the last one that is carried out, and the last address of all. -/
def settled (items : List Argument) (ending : LineEnding) (s : Settings) : Settings :=
  let on := carriedOut items ending
  let plain := fun v => inetPton .inet v
  let ipv6 := fun v => !inetPton .inet v && inetPton .inet6 v
  { proxyAddress := ((on.filterMap (·.value .l)).filter plain).getLastD s.proxyAddress
    proxyAddressIpv6 := ((on.filterMap (·.value .l)).filter ipv6).getLastD s.proxyAddressIpv6
    clientPort := (on.filterMap (·.value .p)).getLastD s.clientPort
    adminAddress := ((on.filterMap (·.value .L)).filter plain).getLastD s.adminAddress
    adminAddressIpv6 := ((on.filterMap (·.value .L)).filter ipv6).getLastD s.adminAddressIpv6
    adminPort := (on.filterMap (·.value .o)).getLastD s.adminPort
    originAddress := (items.filterMap Argument.origin).getLastD s.originAddress
    originPort := (on.filterMap (·.value .P)).getLastD s.originPort }

end

/-! ## The first loop -/

section
variable {items : List Argument} {ending : LineEnding}

theorem collect_cons (a : List Byte) (rest : List (List Byte)) (options : List Inserted)
    (origin : List Byte) : collect (a :: rest) options origin =
      (match checkArg a with
      | .valid required =>
        if 10 ≤ options.length then .error .options
        else if required then
          match rest with
          | [] => .ok (true, options ++ [⟨a, none⟩], origin)
          | d :: rest => collect rest (options ++ [⟨a, some d⟩]) origin
        else collect rest (options ++ [⟨a, none⟩]) origin
      | .invalid => .ok (false, options, origin)
      | .address => do
        let origin ← strcpy a
        collect rest options origin) := by
  rw [collect.eq_def]

/-- An option and what is behind it. -/
theorem collect_letter (letter : OptionLetter) (more value : List Byte) (rest : List (List Byte))
    (options : List Inserted) (origin : List Byte) :
    collect ((DASH :: letter.octet :: more) :: value :: rest) options origin =
      if 10 ≤ options.length then .error .options
      else collect rest (options ++ [⟨DASH :: letter.octet :: more, some value⟩]) origin := by
  rw [collect_cons, checkArg_letter]
  rfl

/-- A flag. -/
theorem collect_flag (help : Bool) (more : List Byte) (rest : List (List Byte))
    (options : List Inserted) (origin : List Byte) :
    collect ((DASH :: flagOctet help :: more) :: rest) options origin =
      if 10 ≤ options.length then .error .options
      else collect rest (options ++ [⟨DASH :: flagOctet help :: more, none⟩])
        origin := by
  rw [collect_cons, checkArg_flag]
  rfl

/-- An address. -/
theorem collect_address {a : List Byte} (h : a.getD 0 0 ≠ DASH) (rest : List (List Byte))
    (options : List Inserted) (origin : List Byte) :
    collect (a :: rest) options origin =
      if a.length < 100 then collect rest options a else .error .room := by
  have haddress : checkArg a = .address := if_neg h
  rw [collect_cons, haddress, strcpy]
  split_ifs <;> rfl

/-- What is left when the items have been collected. -/
theorem collect_ending (ending : LineEnding) (options : List Inserted) (origin : List Byte) :
    collect ending.words options origin =
      if options.length + ending.inserted.length ≤ 10 ∨ ending.inserted = [] then
        .ok (ending.valid, options ++ ending.inserted, origin)
      else .error .options := by
  cases ending with
  | complete =>
    rw [if_pos (.inr rfl)]
    exact congrArg (fun x => Except.ok (true, x, origin)) (List.append_nil options).symm
  | dangling letter more =>
    show collect [DASH :: letter.octet :: more] options origin = _
    rw [collect_cons, checkArg_letter]
    show (if 10 ≤ options.length then Except.error ArgumentFault.options
      else .ok (true, options ++ [⟨DASH :: letter.octet :: more, none⟩], origin)) = _
    by_cases hlen : 10 ≤ options.length
    · rw [if_pos hlen, if_neg]
      simp only [LineEnding.inserted, List.length_singleton, List.cons_ne_nil, or_false]
      omega
    · rw [if_neg hlen, if_pos]
      · rfl
      · left
        simp only [LineEnding.inserted, List.length_singleton]
        omega
  | invalid a rest h =>
    show collect (a :: rest) options origin = _
    rw [collect_cons, h, if_pos (.inr rfl)]
    exact congrArg (fun x => Except.ok (false, x, origin)) (List.append_nil options).symm

/-- One item of the first loop. -/
theorem collect_item (item : Argument) (rest : List (List Byte)) {options : List Inserted}
    (origin : List Byte) (hoptions : options.length ≤ 10) :
    collect (item.words ++ rest) options origin =
      if options.length + item.inserted.toList.length ≤ 10 then
        if ∀ a ∈ item.origin, a.length < 100 then
          collect rest (options ++ item.inserted.toList) (item.origin.getD origin)
        else .error .room
      else .error .options := by
  cases item with
  | option letter more value =>
    refine (collect_letter letter more value rest options origin).trans ?_
    by_cases hlen : 10 ≤ options.length
    · rw [if_pos hlen, if_neg (by simp [Argument.inserted]; omega)]
    · rw [if_neg hlen, if_pos (by simp [Argument.inserted]; omega),
        if_pos (by simp [Argument.origin])]
      rfl
  | flag help more =>
    refine (collect_flag help more rest options origin).trans ?_
    by_cases hlen : 10 ≤ options.length
    · rw [if_pos hlen, if_neg (by simp [Argument.inserted]; omega)]
    · rw [if_neg hlen, if_pos (by simp [Argument.inserted]; omega),
        if_pos (by simp [Argument.origin])]
      rfl
  | address a h =>
    have hlen : options.length + (Argument.address a h).inserted.toList.length ≤ 10 := hoptions
    have hroom : (∀ b ∈ (Argument.address a h).origin, b.length < 100) ↔ a.length < 100 := by
      simp [Argument.origin]
    have hinserted : options ++ (Argument.address a h).inserted.toList = options :=
      List.append_nil options
    rw [if_pos hlen, if_congr hroom rfl rfl, hinserted]
    exact collect_address h rest options origin

theorem filterMap_cons_toList {α β : Type} (f : α → Option β) (a : α) (as : List α) :
    (a :: as).filterMap f = (f a).toList ++ as.filterMap f := by
  rw [List.filterMap_cons]
  cases f a <;> rfl

theorem getLastD_toList_append {α : Type} (x : Option α) (xs : List α) (a : α) :
    (x.toList ++ xs).getLastD a = xs.getLastD (x.getD a) := by
  cases x with
  | none => rfl
  | some x => exact List.getLastD_cons

/-- **The first loop.** -/
theorem collect_lineOf (items : List Argument) (ending : LineEnding) {options : List Inserted}
    (origin : List Byte) (hoptions : options.length ≤ 10) :
    (options.length + (items.filterMap Argument.inserted ++ ending.inserted).length ≤ 10 →
      (∀ a ∈ items.filterMap Argument.origin, a.length < 100) →
      collect (lineOf items ending) options origin =
        .ok (ending.valid, options ++ (items.filterMap Argument.inserted ++ ending.inserted),
          (items.filterMap Argument.origin).getLastD origin)) ∧
    ((∃ out, collect (lineOf items ending) options origin = .ok out) →
      options.length + (items.filterMap Argument.inserted ++ ending.inserted).length ≤ 10 ∧
        ∀ a ∈ items.filterMap Argument.origin, a.length < 100) := by
  induction items generalizing options origin with
  | nil =>
    have hending : collect (lineOf [] ending) options origin = _ :=
      collect_ending ending options origin
    rw [hending]
    refine ⟨fun hlen _ => if_pos (.inl hlen), ?_⟩
    rintro ⟨out, hout⟩
    refine ⟨?_, fun a ha => absurd ha List.not_mem_nil⟩
    split_ifs at hout with h
    rcases h with h | h
    · exact h
    · rw [List.filterMap_nil, List.nil_append, h]
      exact hoptions
  | cons item items ih =>
    rw [lineOf_cons, collect_item item _ origin hoptions, filterMap_cons_toList,
      filterMap_cons_toList, getLastD_toList_append, List.append_assoc, List.length_append]
    simp only [List.mem_append, Option.mem_toList]
    -- the item has to find room among the ten places
    by_cases hlen : options.length + item.inserted.toList.length ≤ 10
    · rw [if_pos hlen]
      have hall : (options ++ item.inserted.toList).length ≤ 10 := by
        rw [List.length_append]
        exact hlen
      obtain ⟨hto, hfrom⟩ := ih (item.origin.getD origin) hall
      rw [List.append_assoc, List.length_append] at hto
      rw [List.length_append] at hfrom
      -- and an address in 100 octets
      by_cases hroom : ∀ a ∈ item.origin, a.length < 100
      · rw [if_pos hroom]
        refine ⟨fun hall hrooms => hto (by omega) fun a ha => hrooms a (.inr ha), fun hout => ?_⟩
        obtain ⟨hall, hrooms⟩ := hfrom hout
        refine ⟨by omega, fun a ha => ?_⟩
        rcases ha with ha | ha
        · exact hroom a ha
        · exact hrooms a ha
      · rw [if_neg hroom]
        refine ⟨fun _ hrooms => absurd (fun a ha => hrooms a (.inl ha)) hroom, ?_⟩
        rintro ⟨out, hout⟩
        cases hout
    · rw [if_neg hlen]
      refine ⟨fun hall _ => absurd hall (by omega), ?_⟩
      rintro ⟨out, hout⟩
      cases hout

/-! ## The second loop -/

variable (inetPton : Family → List Byte → Bool)

/-- What an option sets. -/
def OptionLetter.set (letter : OptionLetter) (d : List Byte) (s : Settings) : Settings :=
  match letter with
  | l =>
    if inetPton .inet d then { s with proxyAddress := d }
    else if inetPton .inet6 d then { s with proxyAddressIpv6 := d }
    else s
  | L =>
    if inetPton .inet d then { s with adminAddress := d }
    else if inetPton .inet6 d then { s with adminAddressIpv6 := d }
    else s
  | o => { s with adminPort := d }
  | p => { s with clientPort := d }
  | P => { s with originPort := d }
  | _ => s

/-- What an argument sets. -/
def Argument.set : Argument → Settings → Settings
  | option letter _ value, s => letter.set inetPton value s
  | _, s => s

/-- An option is carried out with what is behind it. -/
theorem carryOut_letter (letter : OptionLetter) (more : List Byte) (data : Option (List Byte))
    (s : Settings) : carryOut inetPton ⟨DASH :: letter.octet :: more, data⟩ s =
      if letter.Sets then do
        let d ← Inserted.copied ⟨DASH :: letter.octet :: more, data⟩
        .ok (true, letter.set inetPton d s)
      else .ok (true, s) := by
  have hif : ∀ (x : Except ArgumentFault (List Byte)) (f g : List Byte → Settings),
      (do
        let d ← x
        if inetPton .inet d then .ok (true, f d)
        else if inetPton .inet6 d then .ok (true, g d)
        else .ok (true, s)) = (do
        let d ← x
        .ok (true, if inetPton .inet d then f d else if inetPton .inet6 d then g d else s)) := by
    intro x f g
    cases x with
    | error e => rfl
    | ok d =>
      simp only [ok_bind]
      split_ifs <;> rfl
  cases letter with
  | l =>
    exact hif _ (fun d => { s with proxyAddress := d }) fun d => { s with proxyAddressIpv6 := d }
  | L =>
    exact hif _ (fun d => { s with adminAddress := d }) fun d => { s with adminAddressIpv6 := d }
  | _ => rfl

/-- A flag stops the loop. -/
theorem carryOut_flag (help : Bool) (more : List Byte) (data : Option (List Byte)) (s : Settings) :
    carryOut inetPton ⟨DASH :: flagOctet help :: more, data⟩ s = .ok (false, s) := by
  cases help <;> rfl

/-- The options one after the other, as long as the function goes on. -/
def carryOutAll : List Inserted → Settings → Except ArgumentFault (Bool × Settings)
  | [], s => .ok (true, s)
  | o :: os, s => do
    let (goOn, s) ← carryOut inetPton o s
    if goOn then carryOutAll os s else .ok (false, s)

/-- Behind the options the rounds do nothing, until there is no `options[i]` any more. -/
theorem carryOutFrom_behind {options : List Inserted} (n : ℕ) {i : ℕ} (hi : options.length ≤ i)
    (hi10 : i ≤ 10) (s : Settings) :
    carryOutFrom inetPton options n i s = if n + i ≤ 10 then .ok (1, s) else .error .options := by
  induction n generalizing i with
  | zero => rw [if_pos (by omega), carryOutFrom]
  | succ n ih =>
    rw [carryOutFrom]
    by_cases hbeyond : 10 ≤ i
    · rw [if_pos hbeyond, if_neg (by omega)]
    · rw [if_neg hbeyond, List.getElem?_eq_none hi]
      have hsum : n + 1 + i = n + (i + 1) := by omega
      rw [hsum]
      exact ih (by omega) (by omega)

/-- **The second loop**: the options, and then as many rounds as there are arguments. -/
theorem carryOutFrom_eq (before os : List Inserted) (n : ℕ) (s : Settings)
    (hoptions : (before ++ os).length ≤ 10) (hn : os.length ≤ n) :
    carryOutFrom inetPton (before ++ os) n before.length s = (do
      let (goOn, s) ← carryOutAll inetPton os s
      if goOn then if n + before.length ≤ 10 then .ok (1, s) else .error .options
      else .ok (0, s)) := by
  induction os generalizing before n s with
  | nil =>
    rw [List.append_nil] at hoptions ⊢
    rw [carryOutFrom_behind inetPton n (Nat.le_refl _) hoptions]
    rfl
  | cons o os ih =>
    have hlen : before.length < 10 := by
      rw [List.length_append, List.length_cons] at hoptions
      omega
    obtain ⟨n, rfl⟩ : ∃ m, n = m + 1 := ⟨n - 1, by rw [List.length_cons] at hn; omega⟩
    have hget : (before ++ o :: os)[before.length]? = some o := by simp
    rw [carryOutFrom, if_neg (by omega), carryOutAll]
    simp only [hget]
    cases carryOut inetPton o s with
    | error e => rfl
    | ok out =>
      obtain ⟨goOn, s'⟩ := out
      cases goOn with
      | false => rfl
      | true =>
        have hrest := ih (before ++ [o]) n s' (by simpa using hoptions) (by simpa using hn)
        rw [List.append_assoc, List.length_append, List.length_singleton, List.singleton_append]
          at hrest
        have hsum : n + 1 + before.length = n + (before.length + 1) := by omega
        simp only [ok_bind, if_true, hrest, hsum]

/-- What the arguments before the first that stops set. -/
def setAll (items : List Argument) (s : Settings) : Settings :=
  items.foldl (fun s item => item.set inetPton s) s

/-- The arguments one after the other. -/
theorem carryOutAll_items (items : List Argument) (os : List Inserted) (s : Settings) :
    carryOutAll inetPton (items.filterMap Argument.inserted ++ os) s =
      if ∀ v ∈ (untilStop items).filterMap Argument.copied, v.length < 100 then
        if items.any Argument.stops then .ok (false, setAll inetPton (untilStop items) s)
        else carryOutAll inetPton os (setAll inetPton (untilStop items) s)
      else .error .room := by
  induction items generalizing s with
  | nil =>
    have hnil : ∀ v ∈ (untilStop []).filterMap Argument.copied, v.length < 100 :=
      fun v hv => absurd hv List.not_mem_nil
    rw [if_pos hnil]
    rfl
  | cons item items ih =>
    cases item with
    -- an address is not among the options
    | address a h => exact ih s
    | flag help more =>
      have hnil : ∀ v ∈ (untilStop (.flag help more :: items)).filterMap Argument.copied,
          v.length < 100 := fun v hv => absurd hv List.not_mem_nil
      show carryOutAll inetPton (⟨DASH :: flagOctet help :: more, none⟩ :: _) s = _
      rw [carryOutAll, carryOut_flag, if_pos hnil]
      rfl
    | option letter more value =>
      have huntil : untilStop (.option letter more value :: items) =
        .option letter more value :: untilStop items := rfl
      have hany : (Argument.option letter more value :: items).any Argument.stops =
        items.any Argument.stops := rfl
      have hset : setAll inetPton (.option letter more value :: untilStop items) s =
        setAll inetPton (untilStop items) (letter.set inetPton value s) := rfl
      have hcopied : (∀ v ∈ (Argument.option letter more value :: untilStop items).filterMap
          Argument.copied, v.length < 100) ↔ (letter.Sets → value.length < 100) ∧
            ∀ v ∈ (untilStop items).filterMap Argument.copied, v.length < 100 := by
        rw [filterMap_cons_toList, List.forall_mem_append]
        refine and_congr_left fun _ => ?_
        by_cases hsets : letter.Sets <;> simp [Argument.copied, hsets]
      rw [huntil, hany, hset, filterMap_cons_toList]
      show carryOutAll inetPton (⟨DASH :: letter.octet :: more, some value⟩ :: _) s = _
      rw [carryOutAll, carryOut_letter]
      -- the options that only read their argument copy nothing
      by_cases hsets : letter.Sets
      · rw [if_pos hsets, Inserted.copied]
        simp only [strcpy]
        by_cases hroom : value.length < 100
        · rw [if_pos hroom, if_congr (hcopied.trans (and_iff_right fun _ => hroom)) rfl rfl]
          exact ih (letter.set inetPton value s)
        · rw [if_neg hroom, if_neg fun h => hroom ((hcopied.mp h).1 hsets)]
          rfl
      · have hnone : letter.set inetPton value s = s := by
          cases letter <;> first | rfl | exact absurd (by decide) hsets
        rw [if_neg hsets, if_congr (hcopied.trans (and_iff_right fun h => absurd h hsets)) rfl rfl,
          hnone]
        exact ih s

/-- Behind the last argument. -/
theorem carryOutAll_ending (ending : LineEnding) (s : Settings) :
    carryOutAll inetPton ending.inserted s =
      if ending.Lacks then .error .null else .ok (true, s) := by
  cases ending with
  | complete => rfl
  | invalid a rest h => rfl
  | dangling letter more =>
    have hlacks : (LineEnding.dangling letter more).Lacks ↔ letter.Sets := Iff.rfl
    show carryOutAll inetPton [⟨DASH :: letter.octet :: more, none⟩] s = _
    rw [carryOutAll, carryOut_letter, if_congr hlacks rfl rfl]
    split_ifs <;> rfl

/-! ## The settings -/

theorem getLastD_filter_cons (f : Argument → Option (List Byte)) (p : List Byte → Bool)
    (item : Argument) (items : List Argument) (old : List Byte) :
    (((item :: items).filterMap f).filter p).getLastD old =
      ((items.filterMap f).filter p).getLastD (((f item).filter p).getD old) := by
  have hfilter : (f item).toList.filter p = ((f item).filter p).toList := by
    cases f item with
    | none => rfl
    | some v => by_cases hp : p v <;> simp [Option.filter_some, hp]
  rw [filterMap_cons_toList, List.filter_append, hfilter, getLastD_toList_append]

theorem getLastD_filterMap_cons (f : Argument → Option (List Byte)) (item : Argument)
    (items : List Argument) (old : List Byte) :
    ((item :: items).filterMap f).getLastD old =
      (items.filterMap f).getLastD ((f item).getD old) := by
  rw [filterMap_cons_toList, getLastD_toList_append]

/-- What one argument sets. -/
theorem Argument.set_eq (item : Argument) (s : Settings) : item.set inetPton s =
    { proxyAddress := ((item.value .l).filter fun v => inetPton .inet v).getD s.proxyAddress
      proxyAddressIpv6 := ((item.value .l).filter fun v =>
        !inetPton .inet v && inetPton .inet6 v).getD s.proxyAddressIpv6
      clientPort := (item.value .p).getD s.clientPort
      adminAddress := ((item.value .L).filter fun v => inetPton .inet v).getD s.adminAddress
      adminAddressIpv6 := ((item.value .L).filter fun v =>
        !inetPton .inet v && inetPton .inet6 v).getD s.adminAddressIpv6
      adminPort := (item.value .o).getD s.adminPort
      originAddress := s.originAddress
      originPort := (item.value .P).getD s.originPort } := by
  cases item with
  | flag help more => rfl
  | address a h => rfl
  | option letter more value =>
    cases letter with
    | l | L =>
      simp only [set, OptionLetter.set, Argument.value, if_true, reduceCtorEq, if_false,
        Option.filter_some, Option.filter_none, Option.getD_none]
      by_cases hinet : inetPton .inet value
      · simp [hinet]
      · by_cases hinet6 : inetPton .inet6 value <;> simp [hinet, hinet6]
    | _ => rfl

/-- What all of them set. -/
theorem setAll_eq (items : List Argument) (s : Settings) : setAll inetPton items s =
    { proxyAddress := ((items.filterMap (·.value .l)).filter fun v =>
        inetPton .inet v).getLastD s.proxyAddress
      proxyAddressIpv6 := ((items.filterMap (·.value .l)).filter fun v =>
        !inetPton .inet v && inetPton .inet6 v).getLastD s.proxyAddressIpv6
      clientPort := (items.filterMap (·.value .p)).getLastD s.clientPort
      adminAddress := ((items.filterMap (·.value .L)).filter fun v =>
        inetPton .inet v).getLastD s.adminAddress
      adminAddressIpv6 := ((items.filterMap (·.value .L)).filter fun v =>
        !inetPton .inet v && inetPton .inet6 v).getLastD s.adminAddressIpv6
      adminPort := (items.filterMap (·.value .o)).getLastD s.adminPort
      originAddress := s.originAddress
      originPort := (items.filterMap (·.value .P)).getLastD s.originPort } := by
  induction items generalizing s with
  | nil => rfl
  | cons item items ih =>
    have hcons : setAll inetPton (item :: items) s =
      setAll inetPton items (item.set inetPton s) := rfl
    rw [hcons, ih, item.set_eq]
    simp only [getLastD_filter_cons, getLastD_filterMap_cons]

/-- Not more is inserted than there are words. -/
theorem length_inserted_le (items : List Argument) (ending : LineEnding) :
    (items.filterMap Argument.inserted ++ ending.inserted).length ≤
      (lineOf items ending).length := by
  induction items with
  | nil => cases ending <;> simp [lineOf, LineEnding.inserted, LineEnding.words]
  | cons item items ih =>
    have hitem : item.inserted.toList.length ≤ item.words.length := by
      cases item <;> simp [Argument.inserted, Argument.words]
    rw [lineOf_cons, filterMap_cons_toList, List.append_assoc]
    simp only [List.length_append] at ih ⊢
    omega

/-- The second loop over the whole line. -/
theorem carryOutFrom_lineOf (items : List Argument) (ending : LineEnding) (s : Settings)
    (hoptions : (items.filterMap Argument.inserted ++ ending.inserted).length ≤ 10) :
    carryOutFrom inetPton (items.filterMap Argument.inserted ++ ending.inserted)
        (lineOf items ending).length 0 s =
      if ∀ v ∈ (untilStop items).filterMap Argument.copied, v.length < 100 then
        if items.any Argument.stops then .ok (0, setAll inetPton (untilStop items) s)
        else if ending.Lacks then .error .null
        else if (lineOf items ending).length ≤ 10 then
          .ok (1, setAll inetPton (untilStop items) s)
        else .error .options
      else .error .room := by
  have hloop := carryOutFrom_eq inetPton [] (items.filterMap Argument.inserted ++ ending.inserted)
    (lineOf items ending).length s hoptions (length_inserted_le items ending)
  rw [List.nil_append, List.length_nil, Nat.add_zero, carryOutAll_items, carryOutAll_ending]
    at hloop
  rw [hloop]
  split_ifs <;> rfl

/-- **The arguments of the program.**  Each line of arguments is made of options, addresses and an
ending.  What can be read of them sets what the last of each kind says, up to the first `-h` or
`-v`; an argument that is not valid leaves all but the address of the origin as it was.  What
cannot be read makes the program leave its arrays or follow NULL. -/
theorem arguments_read (argv : List (List Byte)) (s : Settings) :
    (∃ items ending, argv = lineOf items ending) ∧ ∀ items ending, argv = lineOf items ending →
      (Readable items ending → commandLineParser inetPton argv s =
        .ok (returned items ending, settled inetPton items ending s)) ∧
      (¬ Readable items ending → ∃ e, commandLineParser inetPton argv s = .error e) := by
  refine ⟨exists_lineOf argv, ?_⟩
  rintro items ending rfl
  have hempty : ([] : List Inserted).length ≤ 10 := Nat.zero_le 10
  obtain ⟨hcollect, hcollected⟩ := collect_lineOf items ending s.originAddress hempty
  rw [List.length_nil, Nat.zero_add] at hcollect hcollected
  -- the first loop gets through where the places and the 100 octets suffice
  by_cases hfirst : (items.filterMap Argument.inserted ++ ending.inserted).length ≤ 10 ∧
      ∀ a ∈ items.filterMap Argument.origin, a.length < 100
  · have hloop := carryOutFrom_lineOf inetPton items ending
      { s with originAddress := (items.filterMap Argument.origin).getLastD s.originAddress }
      hfirst.1
    rw [commandLineParser, hcollect hfirst.1 hfirst.2]
    simp only [ok_bind, List.nil_append]
    cases hvalid : ending.valid with
    | false =>
      -- an invalid argument ends it, and the second loop does not run
      have hon : carriedOut items ending = [] := if_neg (by simp [hvalid])
      constructor
      · intro _
        rw [if_neg (by simp), returned, hvalid, settled, hon]
        rfl
      · intro hnot
        refine absurd ⟨hfirst.1, hfirst.2, ?_, ?_⟩ hnot
        · rw [hon]
          exact fun v hv => absurd hv List.not_mem_nil
        · intro h
          rw [hvalid] at h
          cases h
    | true =>
      -- the second loop carries out what is in front of an option that stops it
      have hon : carriedOut items ending = untilStop items := if_pos hvalid
      have hsettled : setAll inetPton (untilStop items)
          { s with originAddress := (items.filterMap Argument.origin).getLastD s.originAddress } =
            settled inetPton items ending s := by
        rw [setAll_eq, settled, hon]
      rw [if_pos rfl, hloop, hsettled, returned, hvalid, Bool.true_and]
      constructor
      · intro h
        have hvalues := h.values
        rw [hon] at hvalues
        rw [if_pos hvalues]
        cases hstops : items.any Argument.stops with
        | true => rfl
        | false =>
          obtain ⟨hlen, hlacks⟩ := h.loop hvalid hstops
          rw [if_neg (by simp), if_neg hlacks, if_pos hlen]
          rfl
      · intro hnot
        split_ifs with hvalues hstops hlacks hlen
        · refine absurd ⟨hfirst.1, hfirst.2, hon ▸ hvalues, fun _ hgo => ?_⟩ hnot
          rw [hgo] at hstops
          cases hstops
        · exact ⟨.null, rfl⟩
        · exact absurd ⟨hfirst.1, hfirst.2, hon ▸ hvalues, fun _ _ => ⟨hlen, hlacks⟩⟩ hnot
        · exact ⟨.options, rfl⟩
        · exact ⟨.room, rfl⟩
  -- the first loop fails, whatever the second one would do
  · constructor
    · intro h
      exact absurd ⟨h.options, h.origins⟩ hfirst
    · intro _
      cases hout : collect (lineOf items ending) [] s.originAddress with
      | error e => exact ⟨e, by rw [commandLineParser, hout]; rfl⟩
      | ok out => exact absurd (hcollected ⟨out, hout⟩) hfirst

end

end Pop3Proxy
