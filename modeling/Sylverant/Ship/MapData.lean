/-
# Map data

What a game knows of the enemies on its maps, as `mapdata.h` declares it.
-/

namespace Sylverant.Ship

/-- `game_enemy_t` -/
structure GameEnemy where
  bpEntry : UInt32
  rtIndex : UInt8
  clientsHit : BitVec 8 := 0
  lastClient : UInt8 := 0
  dropDone : UInt8 := 0
  deriving DecidableEq, Repr, Inhabited

/-- `game_enemies_t`. The array `enemies` has `count` entries. What the function says
from there on is the memory behind the array. -/
structure GameEnemies where
  count : Nat
  enemies : Nat → GameEnemy

end Sylverant.Ship
