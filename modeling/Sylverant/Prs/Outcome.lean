/-
# How the PRS functions stop

Every function of the PRS code returns an `int`: a size, or the negative of an
`errno` value. The models keep the two apart, so that a negative return value
ends the caller too, which is what each caller in the source does with it. Two
more ways to stop exist only in the models: an access outside the block it was
meant for, and a loop that was given too little fuel. The theorems show that
neither is ever reached.
-/

import Mathlib.Tactic.Common

namespace Sylverant.Prs

def EPERM : Int := 1
def EFAULT : Int := 14
def EINVAL : Int := 22
def ENOSPC : Int := 28
def EBADMSG : Int := 74

/-- What ends a function early. -/
inductive Stop
  /-- The function returns this negative value. -/
  | ret (code : Int)
  /-- A read or a write outside its block. -/
  | fault
  /-- A loop of the model ran out of fuel. -/
  | fuel
  deriving DecidableEq, Repr

/-- Newly allocated memory holds whatever was there. -/
def malloc (junk : Nat → UInt8) (n : Nat) : List UInt8 := (List.range n).map junk

/-- Growing a block keeps its bytes; the new ones hold whatever was there. -/
def realloc (junk : Nat → UInt8) (block : List UInt8) (n : Nat) : List UInt8 :=
  block.take n ++ (List.range (n - block.length)).map fun i => junk (block.length + i)

@[simp]
theorem length_malloc (junk : Nat → UInt8) (n : Nat) : (malloc junk n).length = n := by
  simp [malloc]

@[simp]
theorem length_realloc (junk : Nat → UInt8) (block : List UInt8) (n : Nat) :
    (realloc junk block n).length = n := by
  simp only [realloc, List.length_append, List.length_take, List.length_map, List.length_range]
  omega

/-- Bytes below both sizes survive. -/
theorem take_realloc (junk : Nat → UInt8) {block : List UInt8} {n k : Nat}
    (hk : k ≤ block.length) (hn : block.length ≤ n) :
    (realloc junk block n).take k = block.take k := by
  rw [realloc, List.take_of_length_le hn, List.take_append_of_le_length hk]

end Sylverant.Prs
