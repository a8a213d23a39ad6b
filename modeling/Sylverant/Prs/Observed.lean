/-
# The encoder with a record

A copy of the encoder that notes what it does: each byte of the input that it reads, each
string that it adds to the hash table, and each search with the positions that it visits and
what it finds. Everything else is that of the encoder, whose functions are called where they
do none of these. A search is noted before its string is added.
-/

import Sylverant.Library.Simulation
import Sylverant.Prs.Comp

namespace Sylverant.Prs.Observed

open Observing (note quiet)

/-- What is noted. -/
inductive Event
  /-- The byte at `i` is read. -/
  | read (i : Nat)
  /-- The string at `s` is added to the hash table. -/
  | insert (s : Nat)
  /-- `find_longest_match` is called at `p`, visits these positions in turn, and returns this
  length and offset. -/
  | search (p : Nat) (visited : List Nat) (len pos : Int)
  deriving DecidableEq, Repr

abbrev Run (α : Type) := EStateM Stop (List Event) α

def load (src : Nat → UInt8) (i : Nat) : Run UInt8 := do
  note (.read i)
  return src i

/-! ## Literals -/

def copyLiteral (cxt : CompCxt) : Run CompCxt :=
  if cxt.dstPos ≥ cxt.dstLen then throw (.ret (-ENOSPC))
  else if cxt.srcPos ≥ cxt.srcLen then throw (.ret (-EPERM))
  else do
    let b ← load cxt.src cxt.srcPos
    let cxt ← quiet (storeByte cxt cxt.dstPos b)
    return { cxt with dstPos := cxt.dstPos + 1, srcPos := cxt.srcPos + 1 }

def putLiteral (cxt : CompCxt) : Run CompCxt := do
  let cxt ← quiet (setBit cxt 1)
  copyLiteral cxt

/-! ## The hash table -/

def hashStr (src : Nat → UInt8) (s : Nat) : Run UInt8 := do
  let c1 ← load src s
  let c2 ← load src (s + 1)
  return c1 ^^^ c2

def addToHash (base : Nat) (hc : HashCxt) (s : Nat) (h : UInt8) : Run HashCxt := do
  note (.insert s)
  return hc.addToHash base s h

/-! ## Searching -/

def matchLoop (src : Nat → UInt8) (s1 s2 : Nat) : Nat → Run Nat
  | 0 => return 0
  | left + 1 => do
      let b1 ← load src s1
      let b2 ← load src s2
      if b1 = b2 then do
        let len ← matchLoop src (s1 + 1) (s2 + 1) left
        return len + 1
      else return 0

def matchLength (cxt : CompCxt) (s2 : Nat) : Run Int := do
  let len ← matchLoop cxt.src cxt.srcPos s2 (cxt.srcLen - cxt.srcPos)
  return CInt.ofInt len

/-- With the positions of the chain. -/
def followChain (base : Nat) (cxt : CompCxt) :
    Nat → HashCxt → Nat → Int × Option Nat → Run ((Int × Option Nat) × HashCxt × List Nat)
  | 0, _, _, _ => throw .fuel
  | fuel + 1, hc, ent, longest => do
      let mlen ← matchLength cxt ent
      let longest := keepLongest mlen ent longest
      match hc.prev base ent with
      | none => return (longest, hc, [ent])
      | some ent2 =>
          if beyondWindow cxt.srcPos ent2 then return (longest, hc.setPrev base ent none, [ent])
          else do
            let (longest, hc, visited) ← followChain base cxt fuel hc ent2 longest
            return (longest, hc, ent :: visited)

/-- The end of a search. -/
def endSearch (base : Nat) (cxt : CompCxt) (lazy : Bool) (hash : UInt8) (visited : List Nat)
    (longest pos : Int) (hc : HashCxt) : Run (Int × Int × HashCxt) := do
  note (.search cxt.srcPos visited longest pos)
  if lazy then return (longest, pos, hc)
  else do
    let hc ← addToHash base hc cxt.srcPos hash
    return (longest, pos, hc)

def findLongestMatch (base : Nat) (cxt : CompCxt) (hc : HashCxt) (lazy : Bool) :
    Run (Int × Int × HashCxt) :=
  if cxt.srcPos ≥ cxt.srcLen then do
    note (.search cxt.srcPos [] 0 0)
    return (0, 0, hc)
  else do
    let hash ← hashStr cxt.src cxt.srcPos
    match hc.hash hash with
    | none => endSearch base cxt lazy hash [] 0 0 hc
    | some ent =>
        if beyondWindow cxt.srcPos ent then
          endSearch base cxt lazy hash [] 0 0 (hc.setEnt hash none)
        else do
          let (longest, hc, visited) ← followChain base cxt (cxt.srcPos + 1) hc ent (0, none)
          match longest with
          | (longest, some longestMatch) =>
              endSearch base cxt lazy hash visited longest
                (CInt.ofInt (CInt.ofInt longestMatch - CInt.ofInt cxt.srcPos)) hc
          | (longest, none) => endSearch base cxt lazy hash visited longest 0 hc

def addIntermediates (base : Nat) (cxt : CompCxt) (hc : HashCxt) (len : Nat) : Run HashCxt :=
  (List.range' 1 (len - 1)).foldlM
    (fun hc i => do
      let hash ← hashStr cxt.src (cxt.srcPos + i)
      addToHash base hc (cxt.srcPos + i) hash) hc

/-! ## Public functions -/

def archiveLoop : Nat → CompCxt → Run CompCxt
  | 0, cxt => return cxt
  | srcLen + 1, cxt => do
      let cxt ← putLiteral cxt
      archiveLoop srcLen cxt

def prsArchive (junk : Nat → UInt8) (src : Nat → UInt8) (srcLen : Nat) :
    Run (Int × List UInt8) :=
  if srcLen = 0 then throw (.ret (-EINVAL))
  else do
    let cxt ← archiveLoop srcLen (compCxt junk src srcLen)
    let cxt ← quiet (writeEof cxt)
    return (CInt.ofInt cxt.dstPos, cxt.dst)

def skipMatch (base : Nat) (cxt : CompCxt) (hc : HashCxt) (mlen : Int) :
    Run (CompCxt × HashCxt) := do
  let hc ← addIntermediates base cxt hc mlen.toNat
  return ({ cxt with srcPos := cxt.srcPos + mlen.toNat }, hc)

def putMatch (base : Nat) (cxt : CompCxt) (hc : HashCxt) (mlen offset : Int) :
    Run (CompCxt × HashCxt) :=
  if mlen ≥ 2 ∧ mlen ≤ 5 ∧ offset ≥ -256 then do
    let cxt ← quiet (putShortMatch cxt mlen offset)
    skipMatch base cxt hc mlen
  else if mlen ≥ 3 ∧ mlen ≤ 9 then do
    let cxt ← quiet (putLongMatch cxt mlen offset)
    skipMatch base cxt hc mlen
  else if mlen > 9 then do
    let mlen := if mlen > 256 then 256 else mlen
    let cxt ← quiet (putSizedMatch cxt mlen offset)
    skipMatch base cxt hc mlen
  else do
    let cxt ← putLiteral cxt
    return (cxt, hc)

def compressPass (base : Nat) (cxt : CompCxt) (hc : HashCxt) : Run (CompCxt × HashCxt) := do
  let (mlen, offset, hc) ← findLongestMatch base cxt hc false
  if mlen ≠ 0 then do
    let (mlen2, offset2, hc) ←
      findLongestMatch base { cxt with srcPos := cxt.srcPos + 1 } hc true
    if mlen2 > mlen ∧ ¬ keepsShort mlen offset mlen2 offset2 then do
      let cxt ← putLiteral cxt
      return (cxt, hc)
    else putMatch base cxt hc mlen offset
  else do
    let cxt ← putLiteral cxt
    return (cxt, hc)

def compressLoop (base : Nat) : Nat → CompCxt → HashCxt → Run CompCxt
  | 0, _, _ => throw .fuel
  | fuel + 1, cxt, hc =>
      if cxt.srcPos < cxt.srcLen - 1 then do
        let (cxt, hc) ← compressPass base cxt hc
        compressLoop base fuel cxt hc
      else return cxt

def putLeftOver (cxt : CompCxt) : Run CompCxt :=
  if cxt.srcPos < cxt.srcLen then putLiteral cxt else return cxt

def prsCompress (junk : Nat → UInt8) (base : Nat) (src : Nat → UInt8) (srcLen : Nat) :
    Run (Int × List UInt8) :=
  if srcLen = 0 then throw (.ret (-EINVAL))
  else if srcLen ≤ 3 then prsArchive junk src srcLen
  else do
    let hash ← hashStr src 0
    let hc ← addToHash base HashCxt.empty 0 hash
    let hash ← hashStr src 1
    let hc ← addToHash base hc 1 hash
    let cxt ← putLiteral (compCxt junk src srcLen)
    let cxt ← putLiteral cxt
    let cxt ← compressLoop base srcLen cxt hc
    let cxt ← putLeftOver cxt
    let cxt ← quiet (writeEof cxt)
    return (CInt.ofInt cxt.dstPos, cxt.dst.take cxt.dstPos)

end Sylverant.Prs.Observed
