/-
# A line of the body

What an octet of the body does to the flags and to the line that may be a boundary,
field by field.
-/
import Pop3Proxy.Filter.Matching

namespace Pop3Proxy

section
variable (ctx : Ctx) (c : Byte)

/-- The second of two dashes in a row is noted. -/
@[simp] theorem dashSeen_doubleMiddleDash : (dashSeen ctx c).doubleMiddleDash =
    (ctx.doubleMiddleDash || decide (c = DASH) && decide (ctx.isMiddleDash = some true)) := by
  rw [dashSeen]
  split_ifs with hc <;> simp [hc]

@[simp] theorem dashSeen_boundaryEnd : (dashSeen ctx c).boundaryEnd = ctx.boundaryEnd := by
  rw [dashSeen]
  split_ifs <;> rfl

@[simp] theorem dashSeen_possibleBoundaryString :
    (dashSeen ctx c).possibleBoundaryString = ctx.possibleBoundaryString := by
  rw [dashSeen]
  split_ifs <;> rfl

@[simp] theorem boundaryLine_doubleMiddleDash :
    (boundaryLine ctx c).doubleMiddleDash = ctx.doubleMiddleDash := by
  rw [boundaryLine]
  split_ifs <;> rfl

/-- A second dash behind those collected may end the multipart. -/
@[simp] theorem boundaryLine_boundaryEnd : (boundaryLine ctx c).boundaryEnd =
    (ctx.boundaryEnd || ctx.doubleMiddleDash && (decide (c = DASH) &&
      decide (ctx.possibleBoundaryString.getLast? = some DASH))) := by
  rw [boundaryLine]
  split_ifs with hdash <;> simp [hdash]

/-- What is collected behind two dashes, without the dashes before it. -/
@[simp] theorem boundaryLine_possibleBoundaryString : (boundaryLine ctx c).possibleBoundaryString =
    if ctx.doubleMiddleDash = true ∧ ¬ (c = DASH ∧ ctx.possibleBoundaryString = [])
    then ctx.possibleBoundaryString ++ [c] else ctx.possibleBoundaryString := by
  rw [boundaryLine]
  by_cases hdash : ctx.doubleMiddleDash = true <;>
    by_cases hempty : c = DASH ∧ ctx.possibleBoundaryString = [] <;> simp [hdash, hempty]

variable (e : ParserEvent MimeMsgType)

@[simp] theorem msgBody_isMiddleDash :
    (msgBody ctx e).isMiddleDash = some (decide (e.octet 0 = DASH)) := rfl

/-- What an octet of the body notes of dashes. -/
@[simp] theorem msgBody_doubleMiddleDash : (msgBody ctx e).doubleMiddleDash =
    (ctx.doubleMiddleDash || decide (e.octet 0 = DASH) &&
    decide (ctx.isMiddleDash = some true)) := by
  show (boundaryLine (dashSeen (if _ then _ else _) _) _).doubleMiddleDash = _
  split_ifs <;> simp [Ctx.emit]

/-- What it notes of the end of a multipart. -/
theorem msgBody_boundaryEnd : (msgBody ctx e).boundaryEnd =
    (ctx.boundaryEnd || (msgBody ctx e).doubleMiddleDash && (decide (e.octet 0 = DASH) &&
      decide (ctx.possibleBoundaryString.getLast? = some DASH))) := by
  rw [msgBody_doubleMiddleDash]
  show (boundaryLine (dashSeen (if _ then _ else _) _) _).boundaryEnd = _
  split_ifs <;> simp [Ctx.emit]

/-- What it collects. -/
theorem msgBody_possibleBoundaryString : (msgBody ctx e).possibleBoundaryString =
    if (msgBody ctx e).doubleMiddleDash = true ∧
      ¬ (e.octet 0 = DASH ∧ ctx.possibleBoundaryString = [])
    then ctx.possibleBoundaryString ++ [e.octet 0] else ctx.possibleBoundaryString := by
  rw [msgBody_doubleMiddleDash]
  show (boundaryLine (dashSeen (if _ then _ else _) _) _).possibleBoundaryString = _
  by_cases happly : ctx.mediaFilterApply = true <;> simp [happly, Ctx.emit]

end

end Pop3Proxy
