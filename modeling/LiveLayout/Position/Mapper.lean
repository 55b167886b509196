import LiveLayout.Error
import LiveLayout.Position.Buffer

/-!
# Position mappers

A session is told how to turn the coordinates of a layout into those of its nodes.
-/

namespace LiveLayout

/-- How the coordinates of an iteration are read. -/
abbrev PositionMapper := PositionBuffer → Except StreamError Positions

namespace PositionMapper

/-- Takes every coordinate as it stands, in single precision. -/
def standard : PositionMapper := fun buffer => lift buffer.positions

/-- Takes the axes the other way round. -/
def exchanged : PositionMapper := fun buffer =>
  (standard buffer).map fun positions => ⟨positions.y, positions.x⟩

/-- Puts every row of a readable buffer at one place. -/
def constant (x y : UInt32) : PositionMapper := fun buffer =>
  (lift buffer.rows).map fun rows => ⟨List.replicate rows x, List.replicate rows y⟩

end PositionMapper

end LiveLayout
