/-
# Client versions

The constants `CLIENT_VERSION_*`, in their order, and the size of the header of
the packets each version sends.
-/

import Mathlib.Tactic.Common

namespace Sylverant.Ship

/-- The version of a client or of the game it is in. -/
inductive Version
  | dcv1
  | dcv2
  | pc
  | gc
  | ep3
  | bb
  deriving DecidableEq, Repr

/-- The value of the constant. -/
def Version.code : Version → Nat
  | .dcv1 => 0
  | .dcv2 => 1
  | .pc => 2
  | .gc => 3
  | .ep3 => 4
  | .bb => 5

/-- `hdr_size`, as set up by `client_create_connection`. -/
def Version.hdrSize : Version → Nat
  | .bb => 8
  | _ => 4

/-- The constants `ITEM_VERSION_*` for the versions that have one. -/
def itemVersion : Version → Option Nat
  | .dcv1 => some 0x01
  | .dcv2 | .pc => some 0x02
  | .gc => some 0x04
  | .ep3 | .bb => none

end Sylverant.Ship
