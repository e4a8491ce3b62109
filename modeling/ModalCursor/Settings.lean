/-!
# ModalCursor.Settings

The **settings** of a session: where it starts and how long a trail it keeps.
-/

namespace ModalCursor

/-- Where a session starts and how many positions its trail holds. -/
structure Settings where
  /-- The row to start on. A text with fewer rows starts on its last. -/
  startRow : Nat := 8
  /-- Start in the middle of the row, not on its first column. -/
  startCentered : Bool := true
  /-- The number of positions that the trail keeps. -/
  trailLength : Nat := 20
  deriving DecidableEq, Repr

/-- The settings of a session that nobody has changed. -/
def Settings.default : Settings := {}

/-- The settings one by one. -/
inductive Setting
  | startRow
  | centered
  | trailLength
  deriving DecidableEq, Repr

end ModalCursor
