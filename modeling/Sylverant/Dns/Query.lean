/-
# The DNS responder

It answers queries for the addresses it is configured for. A datagram is received into a
buffer that keeps what it held before, and the name of a query is put together in another.
The length of a message is a `size_t` of 64 bits, and so is what a failed receive returns
once it is compared with the size of the header.
-/

import Mathlib.Algebra.Group.Nat.Defs
import Sylverant.Library.Bounded
import Sylverant.Library.Labels

namespace Sylverant.Dns

open Bounded Labels

/-- How many values a `size_t` has. -/
def sizeT : Nat := 2 ^ 64

/-- The size of `dnsmsg_t`. -/
def headerSize : Nat := 12

/-- The address of a host, as its bytes stand in an `in_addr_t`. -/
structure Address where
  b0 : UInt8
  b1 : UInt8
  b2 : UInt8
  b3 : UInt8
  deriving DecidableEq

/-- The address in the order of the host. -/
def Address.ntohl (a : Address) : Nat :=
  a.b0.toNat * 2 ^ 24 + a.b1.toNat * 2 ^ 16 + a.b2.toNat * 2 ^ 8 + a.b3.toNat

/-- An entry of the configuration. Its name is a string of C. -/
structure HostInfo where
  name : List UInt8
  addr : Address
  text : 0 ∉ name
  deriving DecidableEq

/-- What the program holds from one message to the next. -/
structure Memory where
  inbuf : Buf UInt8 1024
  outbuf : Buf UInt8 1024
  hostbuf : Buf UInt8 1024

/-- What was done with a message. -/
structure Result where
  memory : Memory
  sent : Option (List UInt8) := none
  printed : Option String := none

/-! ## The table of hosts -/

/-- `toupper` of the C locale. -/
def toupper (c : UInt8) : UInt8 := if 97 ≤ c ∧ c ≤ 122 then c - 32 else c

/-- `cmp_str` of two strings, each without the zero that ends it. -/
def cmpStr : List UInt8 → List UInt8 → Int
  | [], s2 => (toupper 0).toNat - (toupper (s2.headD 0)).toNat
  | c :: s1, s2 =>
      let v : Int := (toupper c).toNat - (toupper (s2.headD 0)).toNat
      if v ≠ 0 ∨ c = 0 then v else cmpStr s1 s2.tail

/-- The string that begins a buffer. It is read past the end if no zero ends it. -/
def string (b : Buf UInt8 1024) : Option (List UInt8) :=
  if 0 ∈ b.val then some (b.val.takeWhile (· ≠ 0)) else none

/-- `find_host`. -/
def findHost (hosts : List HostInfo) (hostname : List UInt8) : Option HostInfo :=
  hosts.find? fun h => cmpStr h.name hostname = 0

/-! ## Queries -/

/-- The bytes that are appended to a message to answer it: a pointer to the name, the type,
the class, how long it may be kept, and the address behind its length. -/
def record (h : HostInfo) : List UInt8 :=
  let a := h.addr.ntohl
  [0xc0, 0x0c, 0x00, 0x01, 0x00, 0x01, 0x00, 0x00, 0x09, 0xfc, 0x00, 0x04,
    UInt8.ofNat (a >>> 24), UInt8.ofNat (a >>> 16), UInt8.ofNat (a >>> 8), UInt8.ofNat a]

/-- `respond_to_query`. -/
def respondToQuery (m : Memory) (len : Nat) (h : HostInfo) (printed : Option String) :
    Option Result :=
  if (len + 16) % sizeT > 512 then some { memory := m, printed := printed }
  else do
    let message ← read m.inbuf 0 len
    let outbuf ← write m.outbuf 0 message
    let outbuf ← write outbuf 6 [0, 1]
    let outbuf ← write outbuf 2 [0x81, 0x80]
    let outbuf ← write outbuf (headerSize + (len + sizeT - headerSize) % sizeT) (record h)
    let reply ← read outbuf 0 (len + 16)
    some { memory := { m with outbuf := outbuf }, sent := some reply, printed := printed }

/-- The name has ended in the message at `i`. -/
def lookup (hosts : List HostInfo) (m : Memory) (olen i hostlen : Nat) : Option Result := do
  let other ← differs m.inbuf (headerSize + i + 1) [0, 1, 0, 1]
  -- A query of another type or class is not thrown out, whatever is printed here.
  let printed := if other then some "Throwing out non IN A request.\n" else none
  -- There is nothing in front of the buffer when the name is empty.
  let hostbuf ← write m.hostbuf ((hostlen + sizeT - 1) % sizeT) [0]
  let m := { m with hostbuf := hostbuf }
  let hostname ← string hostbuf
  match findHost hosts hostname with
  | some host => respondToQuery m olen host printed
  | none => some { memory := m, printed := printed }

/-- The loop of `process_query`: the labels of the name from the one at `i` on. `len` is how
long the message is behind its header. -/
def walk (hosts : List HostInfo) (olen len : Nat) (m : Memory) (i hostlen : Nat) :
    Option Result :=
  if i < len then
    match hload : load m.inbuf (headerSize + i) with
    | none => none
    | some partlen =>
        if len < i + partlen.toNat + 5 then
          some { memory := m, printed := some "Throwing out bad packet.\n" }
        else if partlen = 0 then lookup hosts m olen i hostlen
        else do
          let part ← read m.inbuf (headerSize + i + 1) partlen.toNat
          let hostbuf ← write m.hostbuf hostlen part
          let hostbuf ← write hostbuf (hostlen + partlen.toNat) [46]
          walk hosts olen len { m with hostbuf := hostbuf } (i + (partlen.toNat + 1))
            (hostlen + partlen.toNat + 1)
  else some { memory := m }
termination_by 1024 - i
decreasing_by
  have inside : headerSize + i < m.inbuf.val.length :=
    (List.getElem?_eq_some_iff.mp hload).1
  rw [m.inbuf.property] at inside
  omega

/-- `ntohs` of a field of the header. -/
def field (b : Buf UInt8 1024) (at' : Nat) : Nat :=
  (b.val.getD at' 0).toNat * 256 + (b.val.getD (at' + 1) 0).toNat

/-- `process_query` of a message of `len` bytes in the buffer. -/
def processQuery (hosts : List HostInfo) (m : Memory) (len : Nat) : Option Result :=
  if field m.inbuf 4 ≠ 1 ∨ field m.inbuf 6 ≠ 0 ∨ field m.inbuf 8 ≠ 0 ∨ field m.inbuf 10 ≠ 0 then
    some { memory := m }
  else walk hosts len ((len + sizeT - headerSize) % sizeT) m 0 0

/-- What `recvfrom` does. -/
inductive Received
  | failed
  | datagram (bytes : List UInt8) (fits : bytes.length ≤ 1024)

/-- What `recvfrom` returns, as an `ssize_t`. -/
def Received.rlen : Received → Int
  | failed => -1
  | datagram bytes _ => bytes.length

/-- The buffer after `recvfrom`. -/
def Received.fill (b : Buf UInt8 1024) : Received → Buf UInt8 1024
  | failed => b
  | datagram bytes fits =>
      ⟨Buffer.memcpy b.val 0 bytes, by
        rw [Buffer.length_memcpy (by rw [b.property, Nat.zero_add]; exact fits), b.property]⟩

/-- A round of the loop of `main`. What was received is compared with the size of the header
as a `size_t`. There is no result if an access leaves a buffer. -/
def serve (hosts : List HostInfo) (m : Memory) (r : Received) : Option Result :=
  let m := { m with inbuf := r.fill m.inbuf }
  let rlen := (r.rlen % (sizeT : Int)).toNat
  if rlen > headerSize then processQuery hosts m rlen else some { memory := m }

end Sylverant.Dns
