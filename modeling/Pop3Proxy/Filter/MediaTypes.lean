/-
# The types to be filtered

The list of media types `main` builds with `add_media_type`, each type with a
matcher and the list of its subtypes, and how one octet of a content type is
compared with them.
-/
import Mathlib.Data.List.Induction
import Pop3Proxy.Library.Traced
import Pop3Proxy.Filter.Strcmpi

namespace Pop3Proxy

open Traced

/-- How the filter can come to grief. -/
inductive FilterFault where
  /-- a NULL pointer is followed -/
  | nullPointer
  /-- memory of `malloc` is used that was never assigned -/
  | uninitialised
  /-- the cursor leaves the array `transformed` -/
  | outOfBounds
  deriving DecidableEq, Repr

/-- `struct subtype_list`: a wildcard has no parser. -/
inductive Subtype where
  | wildcard
  | named (subtype : List Byte) (typeParser : ℕ)
  deriving DecidableEq, Repr

/-- `struct type_list` -/
structure TypeList where
  type : List Byte
  typeParser : ℕ
  subtypes : List Subtype
  deriving DecidableEq, Repr

/-! ## Building the list -/

/-- An octet is assigned in memory of `malloc`: the index, and how many octets were asked for. -/
structure BlockWrite where
  index : ℕ
  size : ℕ
  deriving DecidableEq, Repr

/-- The octet is one of those that were asked for. -/
def BlockWrite.Inside (x : BlockWrite) : Prop := x.index < x.size

instance : DecidablePred BlockWrite.Inside :=
    fun x => inferInstanceAs (Decidable (x.index < x.size))

/-- Code that builds the list. -/
abbrev ListM := Traced BlockWrite FilterFault

/-- `sizeof(type) + 1` and `sizeof(subtype) + 1`, of pointers. -/
def nameSize : ℕ := 8 + 1

/-- `strcpy` of a type or a subtype: the octets and a NUL. -/
def strcpyName (name : List Byte) : ListM Unit :=
  notes ((List.range (name.length + 1)).map fun i => ⟨i, nameSize⟩)

/-- `add_media_subtype` -/
def addMediaSubtype (subtype : List Byte) : ListM Subtype :=
  if subtype ≠ ascii "*" then do
    strcpyName subtype
    pure (.named subtype 0)
  else pure .wildcard

/-- The node of a type that is not in the list. -/
def newType (type subtype : List Byte) : ListM TypeList := do
  strcpyName type
  let s ← addMediaSubtype subtype
  pure ⟨type, 0, [s]⟩

/-- A subtype for a type that is in the list: the pointer to its subtypes is
moved to the last of them first, and nothing follows a wildcard. -/
def TypeList.extend (t : TypeList) (subtype : List Byte) : ListM TypeList :=
  match t.subtypes.getLast? with
  | none => pure t
  | some .wildcard => pure { t with subtypes := [.wildcard] }
  | some last => do
    let s ← addMediaSubtype subtype
    pure { t with subtypes := [last, s] }

/-- The loop of `add_media_type`, and what follows it. -/
def searchType (type subtype : List Byte) : List TypeList → ListM (List TypeList)
  | [] => do
    let t ← newType type subtype
    pure [t]
  | t :: ts =>
    if t.type = type then do
      let t ← t.extend subtype
      pure (t :: ts)
    else do
      let ts ← searchType type subtype ts
      pure (t :: ts)

/-- `add_media_type`.  The list is empty when its head has no type; nobody clears the memory of the
head, so that it tells whether `malloc` has found it cleared. -/
def addMediaType (cleared : Bool) (type subtype : List Byte) (ts : List TypeList) :
    ListM (List TypeList) :=
  match ts with
  | [] => if cleared then do
      let t ← newType type subtype
      pure [t]
    else fail .uninitialised
  | ts => searchType type subtype ts

/-- The list that is built of entries, each a type and a subtype. -/
def addMediaTypes (cleared : Bool) (entries : List (List Byte × List Byte)) :
    ListM (List TypeList) :=
  entries.foldlM (fun ts e => addMediaType cleared e.1 e.2 ts) []

/-! ## What the list comes to -/

/-- The node of a subtype. -/
def Subtype.ofName (subtype : List Byte) : Subtype :=
  if subtype = ascii "*" then .wildcard else .named subtype 0

/-- The node of a type, with one more subtype. -/
def TypeList.add (t : TypeList) (subtype : List Byte) : TypeList :=
  match t.subtypes.getLast? with
  | none => t
  | some .wildcard => { t with subtypes := [.wildcard] }
  | some last => { t with subtypes := [last, Subtype.ofName subtype] }

/-- The list with one more entry. -/
def insertType (type subtype : List Byte) : List TypeList → List TypeList
  | [] => [⟨type, 0, [Subtype.ofName subtype]⟩]
  | t :: ts => if t.type = type then t.add subtype :: ts else t :: insertType type subtype ts

/-- The list of the entries of `FILTER_MEDIAS`. -/
def mediaTypesOf (entries : List (List Byte × List Byte)) : List TypeList :=
  entries.foldl (fun ts e => insertType e.1 e.2 ts) []

section
variable {type subtype : List Byte} {ts : List TypeList}

/-- The subtype is named, whatever became of its block. -/
theorem addMediaSubtype_result (subtype : List Byte) :
    (addMediaSubtype subtype).result = .ok (Subtype.ofName subtype) := by
  rw [addMediaSubtype, Subtype.ofName]
  by_cases h : subtype = ascii "*"
  · rw [if_neg (not_not.mpr h), if_pos h]
    rfl
  · rw [if_pos h, if_neg h]
    rfl

/-- So is the type, with its one subtype. -/
theorem newType_result (type subtype : List Byte) :
    (newType type subtype).result = .ok ⟨type, 0, [Subtype.ofName subtype]⟩ := by
  rw [newType, strcpyName, notes_bind, bind_of_ok (addMediaSubtype_result subtype)]
  rfl

/-- A type with a subtype more. -/
theorem extend_result (t : TypeList) (subtype : List Byte) :
    (t.extend subtype).result = .ok (t.add subtype) := by
  rw [TypeList.extend, TypeList.add]
  cases t.subtypes.getLast? with
  | none => rfl
  | some last =>
    cases last with
    | wildcard => rfl
    | named s p =>
      simp only
      rw [bind_of_ok (addMediaSubtype_result subtype)]
      rfl

/-- The entry goes to the node of its type, or to a new one at the end. -/
theorem searchType_result (type subtype : List Byte) (ts : List TypeList) :
    (searchType type subtype ts).result = .ok (insertType type subtype ts) := by
  induction ts with
  | nil =>
    rw [searchType, bind_of_ok (newType_result type subtype)]
    rfl
  | cons t ts ih =>
    rw [searchType, insertType]
    split_ifs
    · rw [bind_of_ok (extend_result t subtype)]
      rfl
    · rw [bind_of_ok ih]
      rfl

/-- A head that is cleared is the end of the list. -/
theorem addMediaType_cleared (type subtype : List Byte) (ts : List TypeList) :
    addMediaType true type subtype ts = searchType type subtype ts := by
  cases ts <;> rfl

/-- The whole list with an entry more. -/
theorem addMediaType_result (type subtype : List Byte) (ts : List TypeList) :
    (addMediaType true type subtype ts).result = .ok (insertType type subtype ts) := by
  rw [addMediaType_cleared, searchType_result]

/-- One entry more. -/
theorem addMediaTypes_concat (cleared : Bool) (entries : List (List Byte × List Byte))
    (e : List Byte × List Byte) : addMediaTypes cleared (entries ++ [e]) =
      addMediaTypes cleared entries >>= fun ts => addMediaType cleared e.1 e.2 ts := by
  rw [addMediaTypes, List.foldlM_append]
  refine congrArg (addMediaTypes cleared entries >>= ·) (funext fun ts => ?_)
  rw [List.foldlM_cons]
  exact bind_pure _

/-- The last entry is added to the list of the others. -/
theorem mediaTypesOf_concat (entries : List (List Byte × List Byte)) (e : List Byte × List Byte) :
    mediaTypesOf (entries ++ [e]) = insertType e.1 e.2 (mediaTypesOf entries) := by
  rw [mediaTypesOf, List.foldl_append]
  rfl

/-- **The list that is built** is the list of the entries. -/
theorem addMediaTypes_result (entries : List (List Byte × List Byte)) :
    (addMediaTypes true entries).result = .ok (mediaTypesOf entries) := by
  induction entries using List.reverseRecOn with
  | nil => rfl
  | append_singleton entries e ih =>
    rw [addMediaTypes_concat, bind_of_ok ih, mediaTypesOf_concat]
    exact addMediaType_result e.1 e.2 (mediaTypesOf entries)

end

/-! ## Matching -/

/-- One octet of a type: the types are asked in turn, up to the first that matches. -/
def feedTypes (c : Byte) : List TypeList → List TypeList × Option ℕ
  | [] => ([], none)
  | t :: ts =>
    let r := strcmpiFeed t.type t.typeParser c
    if r.2 = some .eq then ({ t with typeParser := r.1 } :: ts, some 0)
    else
      let q := feedTypes c ts
      ({ t with typeParser := r.1 } :: q.1, q.2.map (· + 1))

/-- One octet into the parser of a subtype. -/
def Subtype.feed (c : Byte) : Subtype → Except FilterFault (Subtype × Option StringCmp)
  | .wildcard => .error .nullPointer
  | .named s p => .ok (.named s (strcmpiFeed s p c).1, (strcmpiFeed s p c).2)

/-- The subtypes after the first one: a match among them is what counts. -/
def feedNext (c : Byte) (current : Option StringCmp) :
    List Subtype → Except FilterFault (List Subtype × Option StringCmp)
  | [] => .ok ([], current)
  | s :: ss => do
    let (s, event) ← s.feed c
    let (ss, current) ← feedNext c (if event = some .eq then event else current) ss
    .ok (s :: ss, current)

/-- One octet of a subtype, and the event that decides. -/
def feedSubtypes (c : Byte) :
    List Subtype → Except FilterFault (List Subtype × Option StringCmp)
  | [] => .error .nullPointer
  | .wildcard :: ss => .ok (.wildcard :: ss, some .eq)
  | s :: ss => do
    let (s, event) ← s.feed c
    let (ss, current) ← feedNext c event ss
    .ok (s :: ss, current)

/-- The parsers of subtypes, reset up to the first wildcard. -/
def resetSubtypes : List Subtype → List Subtype
  | [] => []
  | .wildcard :: ss => .wildcard :: ss
  | .named s _ :: ss => .named s 0 :: resetSubtypes ss

/-- The loop of `reset_parser_types_and_subtypes`. -/
def resetTypes (ts : List TypeList) : List TypeList :=
  ts.map fun t => { t with typeParser := 0, subtypes := resetSubtypes t.subtypes }

end Pop3Proxy
