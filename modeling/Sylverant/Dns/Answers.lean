/-
# Which messages are answered

The responder is meant to answer queries for the address of a host it knows, and nothing
else. Four things go wrong. A query of another type or class is only reported. An empty name
makes it write in front of a buffer. A name that has a zero byte in a label is looked up as
far as that byte. And a failed receive is handled like a message of almost `2 ^ 64` bytes.
-/

import Mathlib.Data.List.TakeWhile
import Sylverant.Dns.Query

namespace Sylverant.Dns

open Bounded Labels

/-! ## What should be answered -/

/-- There is one question in a message and nothing else. -/
def OneQuestion (message : List UInt8) : Prop :=
  (message.drop 4).take 8 = [0, 1, 0, 0, 0, 0, 0, 0]

instance (message : List UInt8) : Decidable (OneQuestion message) :=
  inferInstanceAs (Decidable (_ = _))

/-- The message asks for the address of a name. -/
structure IsQuery (message : List UInt8) (name : List Label) : Prop where
  counts : OneQuestion message
  named : name ≠ []
  question : ∃ rest, message.drop headerSize = wire name ++ 0 :: ([0, 1, 0, 1] ++ rest)

/-- A host is meant by a name, whatever the case of its letters. -/
def Means (name : List UInt8) (h : HostInfo) : Prop := h.name.map toupper = name.map toupper

instance (name : List UInt8) : DecidablePred (Means name) :=
  fun h => inferInstanceAs (Decidable (h.name.map toupper = name.map toupper))

/-- The answer to a message. -/
def answer (message : List UInt8) (h : HostInfo) : List UInt8 :=
  message.take 2 ++ [0x81, 0x80] ++ (message.drop 4).take 2 ++ [0, 1] ++ message.drop 8 ++
    [0xc0, 0x0c, 0x00, 0x01, 0x00, 0x01, 0x00, 0x00, 0x09, 0xfc, 0x00, 0x04,
      h.addr.b0, h.addr.b1, h.addr.b2, h.addr.b3]

/-- What should be sent when this is received. -/
def Answers (hosts : List HostInfo) : Received → List UInt8 → Prop
  | .failed, _ => False
  | .datagram message _, reply =>
      ∃ name h, IsQuery message name ∧ hosts.find? (Means (dotted 46 name) ·) = some h ∧
        message.length + 16 ≤ 512 ∧ reply = answer message h

/-- A round keeps inside the buffers and sends what it should. -/
def Right (hosts : List HostInfo) (m : Memory) (r : Received) : Prop :=
  ∃ result, serve hosts m r = some result ∧
    ∀ reply, result.sent = some reply ↔ Answers hosts r reply

/-- A name as far as its first zero byte. -/
def cut (name : List UInt8) : List UInt8 := name.takeWhile (· ≠ 0)

/-- The received messages that are handled as they should be, and the memory with which a
failed receive is. -/
def Meets (hosts : List HostInfo) (m : Memory) : Received → Prop
  | .datagram message _ =>
      OneQuestion message → ∀ name type rest, type.length = 4 →
        message.drop headerSize = wire name ++ 0 :: (type ++ rest) →
        name ≠ [] ∧ (type = [0, 1, 0, 1] ∧ 0 ∉ dotted 46 name ∨ 512 < message.length + 16 ∨
          ∀ h ∈ hosts, ¬ Means (cut (dotted 46 name)) h)
  | .failed =>
      OneQuestion m.inbuf.val → ∃ name rest, name ≠ [] ∧
        m.inbuf.val.drop headerSize = wire name ++ 0 :: rest ∧
        ¬ (rest <+: [0, 1, 0, 1] ∧ rest.length < 4) ∧
        ∀ h ∈ hosts, ¬ Means (cut (dotted 46 name)) h

/-! ## Names -/

theorem toupper_eq_zero_iff (c : UInt8) : toupper c = 0 ↔ c = 0 := by
  unfold toupper
  split
  · rename_i letter
    have low : 97 ≤ c.toNat := UInt8.le_iff_toNat_le.mp letter.1
    have high : c.toNat ≤ 122 := UInt8.le_iff_toNat_le.mp letter.2
    rw [← UInt8.toNat_inj, ← UInt8.toNat_inj, UInt8.toNat_sub]
    change (2 ^ 8 - 32 + c.toNat) % 2 ^ 8 = 0 ↔ c.toNat = 0
    omega
  · exact Iff.rfl

theorem cmpStr_eq_zero_iff {s1 s2 : List UInt8} (h1 : 0 ∉ s1) (h2 : 0 ∉ s2) :
    cmpStr s1 s2 = 0 ↔ s1.map toupper = s2.map toupper := by
  have value (a b : UInt8) :
      ((toupper a).toNat : Int) - (toupper b).toNat = 0 ↔ toupper a = toupper b := by
    rw [← UInt8.toNat_inj]
    omega
  induction s1 generalizing s2 with
  | nil =>
      rw [cmpStr, value]
      cases s2 with
      | nil => exact iff_of_true rfl rfl
      | cons c s2 =>
          have ends : toupper 0 = 0 := (toupper_eq_zero_iff 0).mpr rfl
          refine iff_of_false (fun h => h2 ?_) fun h => nomatch h
          rw [ends] at h
          have zero : c = 0 := (toupper_eq_zero_iff c).mp h.symm
          rw [zero]
          exact List.mem_cons_self
  | cons c s1 ih =>
      have other : c ≠ 0 := fun h => h1 (h ▸ List.mem_cons_self)
      cases s2 with
      | nil =>
          have differ : ((toupper c).toNat : Int) - (toupper 0).toNat ≠ 0 := by
            rw [ne_eq, value, (toupper_eq_zero_iff 0).mpr rfl, toupper_eq_zero_iff]
            exact other
          rw [cmpStr, List.headD_nil, if_pos (Or.inl differ)]
          exact iff_of_false differ fun h => nomatch h
      | cons d s2 =>
          have tail : cmpStr s1 s2 = 0 ↔ s1.map toupper = s2.map toupper :=
            ih (fun h => h1 (List.mem_cons_of_mem c h))
            (fun h => h2 (List.mem_cons_of_mem d h))
          rw [cmpStr, List.headD_cons, List.tail_cons, List.map_cons, List.map_cons,
            List.cons.injEq]
          by_cases same : toupper c = toupper d
          · have equal : ¬ (((toupper c).toNat : Int) - (toupper d).toNat ≠ 0 ∨ c = 0) := by
              rw [not_or, not_not, value]
              exact ⟨same, other⟩
            rw [if_neg equal]
            exact tail.trans (and_iff_right same).symm
          · have differ : ((toupper c).toNat : Int) - (toupper d).toNat ≠ 0 := by
              rw [ne_eq, value]
              exact same
            rw [if_pos (Or.inl differ)]
            exact iff_of_false differ fun h => same h.1

theorem zero_notMem_cut (name : List UInt8) : 0 ∉ cut name := by
  intro h
  have kept := List.mem_takeWhile_imp (p := fun c : UInt8 => decide (c ≠ 0)) h
  exact of_decide_eq_true kept rfl

theorem cut_eq_self {name : List UInt8} (h : 0 ∉ name) : cut name = name := by
  apply List.takeWhile_eq_self_iff.mpr
  intro c hc
  apply decide_eq_true
  intro zero
  exact h (zero ▸ hc)

theorem cut_append_zero (name rest : List UInt8) : cut (name ++ 0 :: rest) = cut name := by
  induction name with
  | nil => rfl
  | cons c name ih =>
      by_cases zero : c = 0
      · subst zero
        rfl
      · have kept (cs : List UInt8) : cut (c :: cs) = c :: cut cs :=
          List.takeWhile_cons_of_pos (decide_eq_true zero)
        rw [List.cons_append, kept, kept, ih]

theorem findHost_eq (hosts : List HostInfo) {name : List UInt8} (h : 0 ∉ name) :
    findHost hosts name = hosts.find? (Means name ·) := by
  have same : (fun host : HostInfo => decide (cmpStr host.name name = 0)) =
      fun host => decide (Means name host) := by
    funext host
    exact decide_eq_decide.mpr (cmpStr_eq_zero_iff host.text h)
  rw [findHost, same]

theorem findHost_eq_none_iff {hosts : List HostInfo} {name : List UInt8} (h : 0 ∉ name) :
    findHost hosts name = none ↔ ∀ host ∈ hosts, ¬ Means name host := by
  rw [findHost_eq hosts h, List.find?_eq_none]
  simp

theorem means_of_find {hosts : List HostInfo} {name : List UInt8} {h : HostInfo}
    (found : hosts.find? (Means name ·) = some h) : Means name h ∧ h ∈ hosts := by
  have means := List.find?_some (p := fun host => decide (Means name host)) found
  exact ⟨of_decide_eq_true means, List.mem_of_find?_eq_some found⟩

/-- No host is meant by a name with a zero byte. -/
theorem not_means_of_zero {name : List UInt8} (h : 0 ∈ name) (host : HostInfo) :
    ¬ Means name host := by
  intro same
  have zero : toupper 0 ∈ name.map toupper := List.mem_map_of_mem h
  rw [← same] at zero
  obtain ⟨c, hc, ends⟩ := List.mem_map.mp zero
  rw [(toupper_eq_zero_iff 0).mpr rfl, toupper_eq_zero_iff] at ends
  exact host.text (ends ▸ hc)

/-- The string in a buffer where a zero was written behind a text. -/
theorem string_write {b b' : Buf UInt8 1024} {i : Nat} {text : List UInt8}
    (before : b.val.take i = text) (h : write b i [0] = some b') : string b' = some (cut text) := by
  have taken := take_write h
  rw [before] at taken
  have all : b'.val = text ++ (0 :: b'.val.drop (i + 1)) := by
    rw [← List.singleton_append, ← List.append_assoc, ← taken]
    exact (List.take_append_drop (i + 1) b'.val).symm
  have zero : 0 ∈ b'.val := by
    rw [all]
    exact List.mem_append_right text List.mem_cons_self
  rw [string, if_pos zero, ← cut, all, cut_append_zero]

/-! ## The reply -/

theorem record_eq (h : HostInfo) :
    record h = [0xc0, 0x0c, 0x00, 0x01, 0x00, 0x01, 0x00, 0x00, 0x09, 0xfc, 0x00, 0x04,
      h.addr.b0, h.addr.b1, h.addr.b2, h.addr.b3] := by
  have w0 := h.addr.b0.toNat_lt
  have w1 := h.addr.b1.toNat_lt
  have w2 := h.addr.b2.toNat_lt
  have w3 := h.addr.b3.toNat_lt
  have byte {a : Nat} {b : UInt8} (same : a % 2 ^ 8 = b.toNat) : UInt8.ofNat a = b := by
    apply UInt8.toNat_inj.mp
    rw [UInt8.toNat_ofNat', same]
  have b0 : UInt8.ofNat (h.addr.ntohl >>> 24) = h.addr.b0 := by
    apply byte
    rw [Nat.shiftRight_eq_div_pow, Address.ntohl]
    omega
  have b1 : UInt8.ofNat (h.addr.ntohl >>> 16) = h.addr.b1 := by
    apply byte
    rw [Nat.shiftRight_eq_div_pow, Address.ntohl]
    omega
  have b2 : UInt8.ofNat (h.addr.ntohl >>> 8) = h.addr.b2 := by
    apply byte
    rw [Nat.shiftRight_eq_div_pow, Address.ntohl]
    omega
  have b3 : UInt8.ofNat h.addr.ntohl = h.addr.b3 := by
    apply byte
    rw [Address.ntohl]
    omega
  rw [record, b0, b1, b2, b3]

/-- The first two bytes of what is long enough. -/
theorem exists_pair {l : List UInt8} (h : 2 ≤ l.length) :
    ∃ pair rest, l = pair ++ rest ∧ pair.length = 2 :=
  ⟨l.take 2, l.drop 2, (List.take_append_drop 2 l).symm, List.length_take_of_le h⟩

/-- The fields of the header that an answer touches, and those between them. -/
theorem exists_fields {message : List UInt8} (h : headerSize ≤ message.length) :
    ∃ id flags asked given rest, message = id ++ (flags ++ (asked ++ (given ++ rest))) ∧
      id.length = 2 ∧ flags.length = 2 ∧ asked.length = 2 ∧ given.length = 2 := by
  have header : headerSize = 12 := rfl
  obtain ⟨id, rest, rfl, idLen⟩ := exists_pair (l := message) (by omega)
  rw [List.length_append] at h
  obtain ⟨flags, rest, rfl, flagsLen⟩ := exists_pair (l := rest) (by omega)
  rw [List.length_append] at h
  obtain ⟨asked, rest, rfl, askedLen⟩ := exists_pair (l := rest) (by omega)
  rw [List.length_append] at h
  obtain ⟨given, rest, rfl, givenLen⟩ := exists_pair (l := rest) (by omega)
  exact ⟨id, flags, asked, given, rest, rfl, idLen, flagsLen, askedLen, givenLen⟩

theorem answer_fields {id flags asked given rest : List UInt8} (h : HostInfo)
    (idLen : id.length = 2) (flagsLen : flags.length = 2) (askedLen : asked.length = 2)
    (givenLen : given.length = 2) :
    answer (id ++ (flags ++ (asked ++ (given ++ rest)))) h =
      id ++ ([0x81, 0x80] ++ (asked ++ ([0, 1] ++ (rest ++ record h)))) := by
  have first : (id ++ (flags ++ (asked ++ (given ++ rest)))).take 2 = id := by
    rw [← idLen, List.take_left]
  have middle : (id ++ (flags ++ (asked ++ (given ++ rest)))).drop 4 =
      asked ++ (given ++ rest) := by
    rw [← List.append_assoc id]
    exact List.drop_left' (by rw [List.length_append, idLen, flagsLen])
  have last : (id ++ (flags ++ (asked ++ (given ++ rest)))).drop 8 = rest := by
    have more := congrArg (List.drop 4) middle
    rw [List.drop_drop] at more
    rw [more, ← List.append_assoc]
    exact List.drop_left' (by rw [List.length_append, askedLen, givenLen])
  have kept : (asked ++ (given ++ rest)).take 2 = asked := by
    rw [← askedLen, List.take_left]
  rw [answer, first, middle, last, kept, record_eq]
  simp only [List.append_assoc]

/-- A message of a sane length that is in the buffer is answered. -/
theorem respondToQuery_of_le {m : Memory} {message tail : List UInt8} {h : HostInfo}
    {printed : Option String} (filled : m.inbuf.val = message ++ tail)
    (long : headerSize ≤ message.length) (short : message.length + 16 ≤ 512) :
    ∃ outbuf, respondToQuery m message.length h printed =
      some { memory := { m with outbuf := outbuf }, sent := some (answer message h),
             printed := printed } := by
  have header : headerSize = 12 := rfl
  have sane : ¬ (message.length + 16) % sizeT > 512 := by
    rw [sizeT]
    omega
  have data : headerSize + (message.length + sizeT - headerSize) % sizeT = message.length := by
    rw [sizeT]
    omega
  have taken : read m.inbuf 0 message.length = some message :=
    read_append (by rw [List.drop_zero, filled]) (Nat.zero_le 1024)
  obtain ⟨id, flags, asked, given, rest, whole, idLen, flagsLen, askedLen, givenLen⟩ :=
    exists_fields long
  have size := congrArg List.length whole
  simp only [List.length_append] at size
  have room := m.outbuf.property
  obtain ⟨out1, write1, val1⟩ := write_middle (b := m.outbuf) (p := [])
    (q := m.outbuf.val.take message.length) (s := message)
    (r := m.outbuf.val.drop message.length) (i := 0)
    (List.take_append_drop message.length m.outbuf.val).symm rfl
    (List.length_take_of_le (by omega))
  have val1' : out1.val = (id ++ (flags ++ asked)) ++
      (given ++ (rest ++ m.outbuf.val.drop message.length)) := by
    rw [val1, List.nil_append, whole]
    simp only [List.append_assoc]
  obtain ⟨out2, write2, val2⟩ := write_middle (i := 6) (s := [0, 1]) val1'
    (by rw [List.length_append, List.length_append, idLen, flagsLen, askedLen]) givenLen
  have val2' : out2.val = id ++ (flags ++ (asked ++ ([0, 1] ++
      (rest ++ m.outbuf.val.drop message.length)))) := by
    rw [val2]
    simp only [List.append_assoc]
  obtain ⟨out3, write3, val3⟩ := write_middle (i := 2) (s := [0x81, 0x80]) val2' idLen flagsLen
  have val3' : out3.val = (id ++ ([0x81, 0x80] ++ (asked ++ ([0, 1] ++ rest)))) ++
      ((m.outbuf.val.drop message.length).take 16 ++
        (m.outbuf.val.drop message.length).drop 16) := by
    rw [val3, List.take_append_drop]
    simp only [List.append_assoc]
  have place : (id ++ ([0x81, 0x80] ++ (asked ++ ([0, 1] ++ rest)))).length = message.length := by
    rw [size]
    simp only [List.length_append, flagsLen, givenLen, List.length_cons, List.length_nil]
  have sized : (record h).length = 16 := by
    rw [record_eq]
    rfl
  obtain ⟨out4, write4, val4⟩ := write_middle (i := message.length) (s := record h) val3' place
    (by rw [sized, List.length_take_of_le (by rw [List.length_drop]; omega)])
  have val4' : out4.val = answer message h ++ (m.outbuf.val.drop message.length).drop 16 := by
    rw [val4, whole, answer_fields h idLen flagsLen askedLen givenLen]
    simp only [List.append_assoc]
  have reply : read out4 0 (message.length + 16) = some (answer message h) := by
    have total : (answer message h).length = message.length + 16 := by
      rw [whole, answer_fields h idLen flagsLen askedLen givenLen, ← whole]
      simp only [List.length_append, sized] at place ⊢
      omega
    rw [← total]
    exact read_append (by rw [List.drop_zero, val4']) (Nat.zero_le 1024)
  refine ⟨out4, ?_⟩
  rw [respondToQuery, if_neg sane, taken, data]
  simp only [Option.bind_eq_bind, Option.bind_some, write1, write2, write3, write4, reply]

/-- The length of a failed receive passes for a short one, and as much is copied. -/
theorem respondToQuery_failed (m : Memory) (h : HostInfo) (printed : Option String) :
    respondToQuery m (sizeT - 1) h printed = none := by
  have sane : ¬ (sizeT - 1 + 16) % sizeT > 512 := by decide
  rw [respondToQuery, if_neg sane, read_outside (by decide)]
  rfl

/-! ## The walk over a name -/

variable {hosts : List HostInfo} {m : Memory} {olen len i : Nat}

/-- A name that has ended is looked up as far as its first zero byte. -/
theorem lookup_named {name : List Label} {other : Bool} (named : name ≠ [])
    (host : m.hostbuf.val.take i = dots 46 name) (inside : i ≤ 1024)
    (seen : differs m.inbuf (headerSize + i + 1) [0, 1, 0, 1] = some other) :
    ∃ hostbuf, lookup hosts m olen i i =
      match findHost hosts (cut (dotted 46 name)) with
      | some h => respondToQuery { m with hostbuf := hostbuf } olen h
          (if other then some "Throwing out non IN A request.\n" else none)
      | none => some {
          memory := { m with hostbuf := hostbuf }
          printed := if other then some "Throwing out non IN A request.\n" else none } := by
  rw [dots_eq named] at host
  have length := congrArg List.length host
  rw [List.length_take_of_le (by rw [m.hostbuf.property]; exact inside), List.length_append,
    List.length_singleton] at length
  have last : (i + sizeT - 1) % sizeT = (dotted 46 name).length := by
    rw [sizeT]
    omega
  have before : m.hostbuf.val.take (dotted 46 name).length = dotted 46 name := by
    have shorter := congrArg (List.take (dotted 46 name).length) host
    rw [List.take_take, Nat.min_eq_left (by omega), List.take_left] at shorter
    exact shorter
  obtain ⟨hostbuf, written, -⟩ := write_inside (b := m.hostbuf) (i := (dotted 46 name).length)
    (s := [0]) (by rw [List.length_singleton]; omega)
  refine ⟨hostbuf, ?_⟩
  rw [lookup, seen, last]
  cases hfound : findHost hosts (cut (dotted 46 name)) with
  | none =>
      simp only [Option.bind_eq_bind, Option.bind_some, written, string_write before written,
        hfound]
  | some h =>
      simp only [Option.bind_eq_bind, Option.bind_some, written, string_write before written,
        hfound]

/-- An empty name is ended in front of the buffer. -/
theorem lookup_empty : lookup hosts m olen 0 0 = none := by
  rw [lookup]
  cases differs m.inbuf (headerSize + 0 + 1) [0, 1, 0, 1] with
  | none => rfl
  | some other => rfl

/-- A label is put behind what there is of the name. -/
theorem walk_label {l : Label} {rest : List UInt8}
    (here : m.inbuf.val.drop (headerSize + i) = l.size :: (l.bytes ++ rest))
    (room : i + l.bytes.length + 5 ≤ len) (inside : headerSize + i ≤ 1024) :
    ∃ hostbuf, hostbuf.val.take (i + (l.bytes.length + 1)) =
        m.hostbuf.val.take i ++ (l.bytes ++ [46]) ∧
      walk hosts olen len m i i = walk hosts olen len { m with hostbuf := hostbuf }
        (i + (l.bytes.length + 1)) (i + (l.bytes.length + 1)) := by
  have header : headerSize = 12 := rfl
  have behind : m.inbuf.val.drop (headerSize + i + 1) = l.bytes ++ rest :=
    drop_add (s := [l.size]) here
  have whole := length_drop (s := l.size :: l.bytes) here inside
  rw [List.length_cons] at whole
  obtain ⟨host1, write1, -⟩ := write_inside (b := m.hostbuf) (i := i) (s := l.bytes) (by omega)
  obtain ⟨host2, write2, -⟩ := write_inside (b := host1) (i := i + l.bytes.length) (s := [46])
    (by rw [List.length_singleton]; omega)
  refine ⟨host2, ?_, ?_⟩
  · have taken := take_write write2
    rw [take_write write1, List.append_assoc] at taken
    exact taken
  · have sane : ¬ len < i + l.size.toNat + 5 := by
      rw [toNat_size]
      omega
    rw [walk, if_pos (by omega)]
    split
    · rename_i nothing
      rw [load_cons here] at nothing
      cases nothing
    · rename_i partlen loaded
      rw [load_cons here] at loaded
      obtain rfl : l.size = partlen := Option.some.inj loaded
      rw [if_neg sane, if_neg size_ne_zero, toNat_size,
        read_append behind (by omega)]
      simp only [Option.bind_eq_bind, Option.bind_some, write1, write2, Nat.add_assoc]

/-- A name that is in the message is put together. -/
theorem walk_name {name : List Label} {rest : List UInt8}
    (here : m.inbuf.val.drop (headerSize + i) = wire name ++ 0 :: rest)
    (room : i + (wire name).length + 5 ≤ len) (inside : headerSize + i ≤ 1024) :
    ∃ hostbuf, hostbuf.val.take (i + (wire name).length) =
        m.hostbuf.val.take i ++ dots 46 name ∧
      walk hosts olen len m i i = lookup hosts { m with hostbuf := hostbuf } olen
        (i + (wire name).length) (i + (wire name).length) := by
  induction name generalizing m i with
  | nil =>
      refine ⟨m.hostbuf, ?_, ?_⟩
      · rw [dots, List.append_nil]
        rfl
      · have sane : ¬ len < i + (0 : UInt8).toNat + 5 := Nat.not_lt.mpr room
        rw [walk, if_pos (by change i + 0 + 5 ≤ len at room; omega)]
        split
        · rename_i nothing
          rw [load_cons here] at nothing
          cases nothing
        · rename_i partlen loaded
          rw [load_cons here] at loaded
          obtain rfl : 0 = partlen := Option.some.inj loaded
          rw [if_neg sane, if_pos rfl]
          rfl
  | cons l name ih =>
      rw [wire, List.cons_append, List.append_assoc] at here
      have size : (wire (l :: name)).length = l.bytes.length + 1 + (wire name).length := by
        rw [wire, List.length_cons, List.length_append]
        omega
      rw [size] at room
      obtain ⟨hostbuf, taken, next⟩ := @walk_label hosts m olen len i l _ here
        (by omega) inside
      have whole := length_drop (s := l.size :: l.bytes) here inside
      rw [List.length_cons] at whole
      have later : m.inbuf.val.drop (headerSize + (i + (l.bytes.length + 1))) =
          wire name ++ 0 :: rest := by
        rw [← Nat.add_assoc]
        exact drop_add (s := l.size :: l.bytes) here
      obtain ⟨hostbuf', taken', found⟩ := ih (m := { m with hostbuf := hostbuf }) later
        (by omega) (by omega)
      refine ⟨hostbuf', ?_, ?_⟩
      · rw [size, ← Nat.add_assoc, taken', taken, dots, List.append_assoc, List.append_assoc,
          List.singleton_append]
      · rw [next, found, size, Nat.add_assoc]

/-- A name ends in the first `len` bytes behind the header. -/
def Ends (m : Memory) (i len : Nat) : Prop :=
  ∃ name rest, m.inbuf.val.drop (headerSize + i) = wire name ++ 0 :: rest ∧
    i + (wire name).length + 5 ≤ len

/-- A label that is not all in the buffer is read past its end. -/
theorem walk_truncated {c : UInt8} {rest : List UInt8}
    (here : m.inbuf.val.drop (headerSize + i) = c :: rest) (other : c ≠ 0)
    (room : i + c.toNat + 5 ≤ len) (outside : 1024 < headerSize + i + 1 + c.toNat) :
    walk hosts olen len m i i = none := by
  rw [walk, if_pos (by omega)]
  split
  · rfl
  · rename_i partlen loaded
    rw [load_cons here] at loaded
    obtain rfl : c = partlen := Option.some.inj loaded
    rw [if_neg (by omega), if_neg other, read_outside outside]
    rfl

/-- When no name ends in the message, it is thrown out or the buffer is left. -/
theorem walk_endless (endless : ¬ Ends m i len) (inside : headerSize + i ≤ 1024) :
    (∃ m' printed, walk hosts olen len m i i = some { memory := m', printed := printed } ∧
      len < 1284) ∨ (walk hosts olen len m i i = none ∧ 1012 < len) := by
  have header : headerSize = 12 := rfl
  generalize left : 1024 - i = k
  induction k using Nat.strong_induction_on generalizing m i with
  | _ k ih =>
  by_cases more : i < len
  · by_cases outside : 1024 ≤ headerSize + i
    · right
      constructor
      · rw [walk, if_pos more]
        split
        · rfl
        · rename_i partlen loaded
          rw [load_outside outside] at loaded
          cases loaded
      · omega
    · obtain ⟨c, rest, here⟩ := drop_of_lt (b := m.inbuf) (Nat.lt_of_not_le outside)
      have byte := c.toNat_lt
      by_cases bad : len < i + c.toNat + 5
      · left
        refine ⟨m, some "Throwing out bad packet.\n", ?_, by omega⟩
        rw [walk, if_pos more]
        split
        · rename_i nothing
          rw [load_cons here] at nothing
          cases nothing
        · rename_i partlen loaded
          rw [load_cons here] at loaded
          obtain rfl : c = partlen := Option.some.inj loaded
          rw [if_pos bad]
      · by_cases zero : c = 0
        · subst zero
          exact absurd ⟨[], rest, here, Nat.le_of_not_lt bad⟩ endless
        · have some : c.toNat ≠ 0 := fun h => zero (UInt8.toNat_inj.mp h)
          by_cases cuts : 1024 < headerSize + i + 1 + c.toNat
          · right
            exact ⟨walk_truncated here zero (by omega) cuts, by omega⟩
          · -- The label is there, and the rest of the name begins behind it.
            have size := length_drop (s := [c]) here (by omega)
            rw [List.length_singleton] at size
            let l : Label :=
              { bytes := rest.take c.toNat
                nonempty := by
                  intro none
                  have gone := congrArg List.length none
                  rw [List.length_take_of_le (by omega)] at gone
                  exact some gone
                short := by
                  rw [List.length_take_of_le (by omega)]
                  omega }
            have bytes : l.bytes.length = c.toNat := List.length_take_of_le (by omega)
            have first : l.size = c := by
              apply UInt8.toNat_inj.mp
              rw [toNat_size, bytes]
            have label : m.inbuf.val.drop (headerSize + i) =
                l.size :: (l.bytes ++ rest.drop c.toNat) := by
              rw [here, first, List.take_append_drop]
            obtain ⟨hostbuf, -, next⟩ := @walk_label hosts m olen len i l _ label
              (by omega) (by omega)
            have still : ¬ Ends { m with hostbuf := hostbuf } (i + (l.bytes.length + 1)) len := by
              rintro ⟨name, rest', later, room⟩
              have behind : m.inbuf.val.drop (headerSize + i + (l.bytes.length + 1)) =
                  rest.drop c.toNat := drop_add (s := l.size :: l.bytes) label
              rw [← Nat.add_assoc] at later
              rw [behind.symm.trans later] at label
              refine endless ⟨l :: name, rest', ?_, ?_⟩
              · rw [label, wire, List.cons_append, List.append_assoc]
              · rw [wire, List.length_cons, List.length_append]
                omega
            rw [next]
            exact ih (1024 - (i + (l.bytes.length + 1))) (by omega) still (by omega) rfl
  · left
    refine ⟨m, none, ?_, by omega⟩
    rw [walk, if_neg more]

/-! ## A round -/

theorem field_eq_iff {b : Buf UInt8 1024} {k lo : Nat} {c d : UInt8} {rest : List UInt8}
    (here : b.val.drop k = c :: d :: rest) (small : lo < 256) :
    field b k = lo ↔ c = 0 ∧ d = UInt8.ofNat lo := by
  have first : b.val[k]? = some c := load_cons here
  have second : b.val[k + 1]? = some d := load_cons (drop_add (s := [c]) here)
  have low : (UInt8.ofNat lo).toNat = lo := UInt8.toNat_ofNat_of_lt' small
  have width := d.toNat_lt
  rw [field, List.getD_eq_getElem?_getD, List.getD_eq_getElem?_getD, first, second,
    Option.getD_some, Option.getD_some, ← UInt8.toNat_inj, ← UInt8.toNat_inj, low]
  change c.toNat * 256 + d.toNat = lo ↔ c.toNat = 0 ∧ d.toNat = lo
  omega

/-- The counts of the header are looked at one by one. -/
theorem fields_iff (b : Buf UInt8 1024) :
    (field b 4 ≠ 1 ∨ field b 6 ≠ 0 ∨ field b 8 ≠ 0 ∨ field b 10 ≠ 0) ↔ ¬ OneQuestion b.val := by
  have next (k : Nat) (h : k + 1 < 1024) :
      ∃ c d, b.val.drop k = c :: d :: b.val.drop (k + 2) := by
    obtain ⟨c, rest, first⟩ := drop_of_lt (b := b) (i := k) (by omega)
    obtain ⟨d, rest', second⟩ := drop_of_lt (b := b) h
    obtain rfl : b.val.drop (k + 1) = rest := drop_add (s := [c]) first
    obtain rfl : b.val.drop (k + 1 + 1) = rest' := drop_add (s := [d]) second
    exact ⟨c, d, by rw [first, second]⟩
  obtain ⟨c4, d4, at4⟩ := next 4 (by decide)
  obtain ⟨c6, d6, at6⟩ := next 6 (by decide)
  obtain ⟨c8, d8, at8⟩ := next 8 (by decide)
  obtain ⟨c10, d10, at10⟩ := next 10 (by decide)
  have counts : (b.val.drop 4).take 8 = [c4, d4, c6, d6, c8, d8, c10, d10] := by
    rw [at4, at6, at8, at10]
    rfl
  have zero : UInt8.ofNat 0 = 0 := rfl
  have one : UInt8.ofNat 1 = 1 := rfl
  rw [OneQuestion, counts, ne_eq, ne_eq, ne_eq, ne_eq, field_eq_iff at4 (by decide),
    field_eq_iff at6 (by decide), field_eq_iff at8 (by decide), field_eq_iff at10 (by decide),
    zero, one]
  simp only [List.cons.injEq, and_true]
  tauto

/-- The memory when a message of some length is handled. -/
theorem processQuery_eq (hosts : List HostInfo) (m : Memory) (len : Nat) :
    processQuery hosts m len =
      if OneQuestion m.inbuf.val then walk hosts len ((len + sizeT - headerSize) % sizeT) m 0 0
      else some { memory := m } := by
  rw [processQuery, ite_cond_congr (propext (fields_iff m.inbuf)), ite_not]

/-- The memory after a datagram. -/
def Memory.receive (m : Memory) (r : Received) : Memory := { m with inbuf := r.fill m.inbuf }

section Datagram

variable {message : List UInt8} {fits : message.length ≤ 1024}

theorem fill_datagram : ((Received.datagram message fits).fill m.inbuf).val =
    message ++ m.inbuf.val.drop message.length := by
  change Buffer.memcpy m.inbuf.val 0 message = _
  rw [Buffer.memcpy, List.take_zero, List.nil_append, Nat.zero_add]

theorem rlen_datagram :
    ((Received.datagram message fits).rlen % (sizeT : Int)).toNat = message.length := by
  rw [Received.rlen, Int.emod_eq_of_lt (Int.natCast_nonneg _), Int.toNat_natCast]
  rw [sizeT]
  omega

/-- A datagram that is longer than a header is handled with its length. -/
theorem serve_datagram (long : headerSize < message.length) :
    serve hosts m (.datagram message fits) =
      if OneQuestion message then
        walk hosts message.length (message.length - headerSize)
          (m.receive (.datagram message fits)) 0 0
      else some { memory := m.receive (.datagram message fits) } := by
  have header : headerSize = 12 := rfl
  have data : (message.length + sizeT - headerSize) % sizeT = message.length - headerSize := by
    rw [sizeT]
    omega
  have counts : OneQuestion ((Received.datagram message fits).fill m.inbuf).val =
      OneQuestion message := by
    rw [OneQuestion, OneQuestion, fill_datagram, List.drop_append_of_le_length (by omega),
      List.take_append_of_le_length (by rw [List.length_drop]; omega)]
  rw [serve, rlen_datagram, if_pos long, processQuery_eq, data]
  simp only [counts]
  rfl

theorem serve_short (short : message.length ≤ headerSize) :
    serve hosts m (.datagram message fits) =
      some { memory := m.receive (.datagram message fits) } := by
  rw [serve, rlen_datagram]
  exact if_neg (Nat.not_lt.mpr short)

/-- The question of a message that is long enough for one. -/
structure Question (message : List UInt8) (name : List Label) (type rest : List UInt8) : Prop where
  typed : type.length = 4
  body : message.drop headerSize = wire name ++ 0 :: (type ++ rest)

variable {name : List Label} {type rest : List UInt8}

theorem Question.unique (q : Question message name type rest) {name' : List Label}
    {type' rest' : List UInt8} (q' : Question message name' type' rest') :
    name = name' ∧ type = type' := by
  obtain ⟨names, tails⟩ := wire_inj (q.body.symm.trans q'.body)
  exact ⟨names, (List.append_inj tails (q.typed.trans q'.typed.symm)).1⟩

theorem Question.long (q : Question message name type rest) : headerSize < message.length := by
  have whole := congrArg List.length q.body
  rw [List.length_drop, List.length_append, List.length_cons] at whole
  omega

/-- A name that ends in the message has a type and a class behind it. -/
theorem ends_iff (long : headerSize < message.length) :
    Ends (m.receive (.datagram message fits)) 0 (message.length - headerSize) ↔
      ∃ name type rest, Question message name type rest := by
  have header : headerSize = 12 := rfl
  have body : (m.receive (.datagram message fits)).inbuf.val.drop (headerSize + 0) =
      message.drop headerSize ++ m.inbuf.val.drop message.length := by
    rw [Memory.receive, fill_datagram]
    exact List.drop_append_of_le_length (by omega)
  constructor
  · rintro ⟨name, rest, here, room⟩
    rw [body] at here
    have sized : (wire name ++ [0]).length + 4 ≤ (message.drop headerSize).length := by
      rw [List.length_append, List.length_singleton, List.length_drop]
      omega
    have split : wire name ++ 0 :: rest = (wire name ++ [0]) ++ rest := by
      rw [List.append_assoc, List.singleton_append]
    have start : wire name ++ [0] = (message.drop headerSize).take (wire name ++ [0]).length := by
      have both := congrArg (List.take (wire name ++ [0]).length) (here.trans split)
      rw [List.take_left, List.take_append_of_le_length (by omega)] at both
      exact both.symm
    refine ⟨name, ((message.drop headerSize).drop (wire name ++ [0]).length).take 4,
      ((message.drop headerSize).drop (wire name ++ [0]).length).drop 4, ?_, ?_⟩
    · exact List.length_take_of_le (by rw [List.length_drop]; omega)
    · have whole := List.take_append_drop (wire name ++ [0]).length (message.drop headerSize)
      rw [← start, List.append_assoc, List.singleton_append] at whole
      rw [List.take_append_drop]
      exact whole.symm
  · rintro ⟨name, type, rest, q⟩
    refine ⟨name, type ++ rest ++ m.inbuf.val.drop message.length, ?_, ?_⟩
    · rw [body, q.body, List.append_assoc, List.cons_append]
    · have whole := congrArg List.length q.body
      rw [List.length_drop, List.length_append, List.length_cons, List.length_append,
        q.typed] at whole
      omega

/-- What should be sent for a question. -/
theorem answers_iff (q : Question message name type rest) (one : OneQuestion message)
    (reply : List UInt8) :
    Answers hosts (.datagram message fits) reply ↔
      name ≠ [] ∧ type = [0, 1, 0, 1] ∧ ∃ h, hosts.find? (Means (dotted 46 name) ·) = some h ∧
        message.length + 16 ≤ 512 ∧ reply = answer message h := by
  constructor
  · rintro ⟨name', h, query, found, short, same⟩
    obtain ⟨rest', body⟩ := query.question
    obtain ⟨rfl, rfl⟩ := q.unique ⟨rfl, body⟩
    exact ⟨query.named, rfl, h, found, short, same⟩
  · rintro ⟨named, rfl, h, found, short, same⟩
    exact ⟨name, h, ⟨one, named, rest, q.body⟩, found, short, same⟩

theorem meets_iff (q : Question message name type rest) (one : OneQuestion message) :
    Meets hosts m (.datagram message fits) ↔
      name ≠ [] ∧ (type = [0, 1, 0, 1] ∧ 0 ∉ dotted 46 name ∨ 512 < message.length + 16 ∨
        ∀ h ∈ hosts, ¬ Means (cut (dotted 46 name)) h) := by
  constructor
  · intro meets
    exact meets one name type rest q.typed q.body
  · intro good _ name' type' rest' typed body
    obtain ⟨rfl, rfl⟩ := q.unique ⟨typed, body⟩
    exact good

/-- A round that sends nothing is right when nothing should be sent. -/
theorem right_of_silent {r : Received} {m' : Memory} {printed : Option String}
    (served : serve hosts m r = some { memory := m', printed := printed })
    (silent : ∀ reply, ¬ Answers hosts r reply) : Right hosts m r :=
  ⟨_, served, fun reply => iff_of_false (fun h => nomatch h) (silent reply)⟩

theorem not_right_of_fault {r : Received} (fault : serve hosts m r = none) :
    ¬ Right hosts m r := by
  rintro ⟨result, served, -⟩
  rw [fault] at served
  exact nomatch served

/-- A question is handled as it should be exactly when the condition holds. -/
theorem right_iff_of_question (q : Question message name type rest) (one : OneQuestion message) :
    Right hosts m (.datagram message fits) ↔ Meets hosts m (.datagram message fits) := by
  have header : headerSize = 12 := rfl
  have whole := congrArg List.length q.body
  rw [List.length_drop, List.length_append, List.length_cons, List.length_append,
    q.typed] at whole
  have here : (m.receive (.datagram message fits)).inbuf.val.drop (headerSize + 0) =
      wire name ++ 0 :: (type ++ (rest ++ m.inbuf.val.drop message.length)) := by
    rw [Memory.receive, fill_datagram, Nat.add_zero, List.drop_append_of_le_length (by omega),
      q.body, List.append_assoc, List.cons_append, List.append_assoc]
  obtain ⟨hostbuf, taken, walked⟩ := @walk_name hosts _ message.length
    (message.length - headerSize) 0 _ _ here (by omega) (by omega)
  have served : serve hosts m (.datagram message fits) = _ :=
    (serve_datagram q.long).trans ((if_pos one).trans walked)
  rw [meets_iff q one]
  by_cases named : name = []
  · subst named
    exact iff_of_false (not_right_of_fault (served.trans lookup_empty)) fun h => h.1 rfl
  · have behind : (m.receive (.datagram message fits)).inbuf.val.drop
        (headerSize + (0 + (wire name).length) + 1) =
        type ++ (rest ++ m.inbuf.val.drop message.length) := by
      have after := drop_add (s := wire name ++ [0])
        (t := type ++ (rest ++ m.inbuf.val.drop message.length))
        (by rw [here, List.append_assoc, List.singleton_append])
      rw [List.length_append, List.length_singleton, ← Nat.add_assoc] at after
      rw [← Nat.add_assoc]
      exact after
    rw [List.take_zero, List.nil_append] at taken
    obtain ⟨hostbuf', found⟩ := @lookup_named hosts
      { m.receive (.datagram message fits) with hostbuf := hostbuf } message.length _ _ _ named
      taken (by omega) (differs_append behind q.typed)
    have clean := zero_notMem_cut (dotted 46 name)
    cases host : findHost hosts (cut (dotted 46 name)) with
    | none =>
        -- Nobody is looked up, under the whole name or a part of it.
        have nobody := (findHost_eq_none_iff clean).mp host
        rw [host] at found
        refine iff_of_true (right_of_silent (served.trans found) fun reply => ?_)
          ⟨named, Or.inr (Or.inr nobody)⟩
        rw [answers_iff q one]
        rintro ⟨-, -, h, known, -⟩
        obtain ⟨means, member⟩ := means_of_find known
        by_cases zero : 0 ∈ dotted 46 name
        · exact not_means_of_zero zero h means
        · rw [cut_eq_self zero] at nobody
          exact nobody h member means
    | some h =>
        rw [host] at found
        rw [findHost_eq hosts clean] at host
        obtain ⟨means, member⟩ := means_of_find host
        by_cases short : message.length + 16 ≤ 512
        · obtain ⟨outbuf, sent⟩ := @respondToQuery_of_le
            { m.receive (.datagram message fits) with hostbuf := hostbuf' } message _ h _
            (@fill_datagram m message fits) (by omega) short
          have served := served.trans (found.trans sent)
          constructor
          · rintro ⟨result, same, right⟩
            obtain rfl := Option.some.inj (served.symm.trans same)
            obtain ⟨-, typed, h', known, -⟩ :=
              (answers_iff q one _).mp ((right (answer message h)).mp rfl)
            refine ⟨named, Or.inl ⟨typed, fun zero => ?_⟩⟩
            exact not_means_of_zero zero h' (means_of_find known).1
          · rintro ⟨-, ⟨typed, zero⟩ | long | nobody⟩
            · rw [cut_eq_self zero] at host
              refine ⟨_, served, fun reply => ?_⟩
              rw [answers_iff q one]
              constructor
              · intro same
                exact ⟨named, typed, h, host, short, (Option.some.inj same).symm⟩
              · rintro ⟨-, -, h', known, -, rfl⟩
                obtain rfl := Option.some.inj (host.symm.trans known)
                rfl
            · exact absurd short (Nat.not_le.mpr long)
            · exact absurd means (nobody h member)
        · have long : 512 < message.length + 16 := Nat.lt_of_not_le short
          have sane : (message.length + 16) % sizeT > 512 := by
            rw [sizeT]
            omega
          have quiet := served.trans (found.trans (if_pos sane))
          refine iff_of_true (right_of_silent quiet fun reply => ?_) ⟨named, Or.inr (Or.inl long)⟩
          rw [answers_iff q one]
          rintro ⟨-, -, -, -, fits, -⟩
          exact short fits

end Datagram

section Failed

/-- A failed receive is handled like a message of almost `2 ^ 64` bytes. -/
theorem serve_failed :
    serve hosts m .failed =
      if OneQuestion m.inbuf.val then walk hosts (sizeT - 1) (sizeT - 13) m 0 0
      else some { memory := m } := by
  have rlen : (Received.failed.rlen % (sizeT : Int)).toNat = sizeT - 1 := by decide
  have long : sizeT - 1 > headerSize := by decide
  have data : (sizeT - 1 + sizeT - headerSize) % sizeT = sizeT - 13 := by decide
  rw [serve, rlen, if_pos long, processQuery_eq, data]
  rfl

theorem right_failed_iff :
    Right hosts m .failed ↔ ∃ m' printed,
      serve hosts m .failed = some { memory := m', printed := printed } := by
  constructor
  · rintro ⟨⟨m', sent, printed⟩, served, right⟩
    cases sent with
    | none => exact ⟨m', printed, served⟩
    | some reply => exact ((right reply).mp rfl).elim
  · rintro ⟨m', printed, served⟩
    exact right_of_silent served fun _ h => h

/-- What is left in the buffer is walked through as far as a name ends there. -/
theorem right_failed_of_counts (one : OneQuestion m.inbuf.val) :
    Right hosts m .failed ↔ Meets hosts m .failed := by
  have header : headerSize = 12 := rfl
  have served : serve hosts m .failed = _ := serve_failed.trans (if_pos one)
  by_cases ends : Ends m 0 (sizeT - 13)
  · obtain ⟨name, rest, here, room⟩ := ends
    have only {name' : List Label} {rest' : List UInt8}
        (h : m.inbuf.val.drop headerSize = wire name' ++ 0 :: rest') :
        name = name' ∧ rest = rest' :=
      wire_inj (here.symm.trans h)
    obtain ⟨hostbuf, taken, walked⟩ := @walk_name hosts m (sizeT - 1) _ _ _ _ here room
      (by omega)
    have served := served.trans walked
    by_cases named : name = []
    · subst named
      apply iff_of_false (not_right_of_fault (served.trans lookup_empty))
      intro meets
      obtain ⟨name', rest', named', here', -⟩ := meets one
      exact named' (only here').1.symm
    · have behind : m.inbuf.val.drop (headerSize + (0 + (wire name).length) + 1) = rest := by
        have after := drop_add (s := wire name ++ [0]) (t := rest)
          (by rw [here, List.append_assoc, List.singleton_append])
        rw [List.length_append, List.length_singleton, ← Nat.add_assoc] at after
        rw [← Nat.add_assoc]
        exact after
      have whole := length_drop (s := wire name) here (by omega)
      rw [List.take_zero, List.nil_append] at taken
      cases seen : differs m.inbuf (headerSize + (0 + (wire name).length) + 1) [0, 1, 0, 1] with
      | none =>
          have fault : lookup hosts { m with hostbuf := hostbuf } (sizeT - 1)
              (0 + (wire name).length) (0 + (wire name).length) = none := by
            rw [lookup, seen]
            rfl
          apply iff_of_false (not_right_of_fault (served.trans fault))
          intro meets
          obtain ⟨name', rest', -, here', inside, -⟩ := meets one
          obtain ⟨rfl, rfl⟩ := only here'
          rw [differs_eq_none_iff, behind] at seen
          exact inside seen
      | some other =>
          obtain ⟨hostbuf', found⟩ := @lookup_named hosts
            { m with hostbuf := hostbuf } (sizeT - 1) _ _ _ named taken (by omega) seen
          have clean := zero_notMem_cut (dotted 46 name)
          have served := served.trans found
          cases host : findHost hosts (cut (dotted 46 name)) with
          | none =>
              rw [host] at served
              apply iff_of_true (right_failed_iff.mpr ⟨_, _, served⟩)
              intro _
              refine ⟨name, rest, named, here, ?_, (findHost_eq_none_iff clean).mp host⟩
              intro gone
              rw [← behind] at gone
              rw [(differs_eq_none_iff _).mpr gone] at seen
              exact nomatch seen
          | some h =>
              rw [host] at served
              apply iff_of_false (not_right_of_fault (served.trans (respondToQuery_failed _ h _)))
              intro meets
              obtain ⟨name', rest', -, here', -, nobody⟩ := meets one
              obtain ⟨rfl, rfl⟩ := only here'
              rw [findHost_eq hosts clean] at host
              obtain ⟨means, member⟩ := means_of_find host
              exact nobody h member means
  · have fault : walk hosts (sizeT - 1) (sizeT - 13) m 0 0 = none := by
      rcases @walk_endless hosts m (sizeT - 1) _ _ ends (by omega) with
        ⟨-, -, -, short⟩ | ⟨fault, -⟩
      · rw [sizeT] at short
        omega
      · exact fault
    apply iff_of_false (not_right_of_fault (served.trans fault))
    intro meets
    obtain ⟨name, rest, -, here, -⟩ := meets one
    refine ends ⟨name, rest, here, ?_⟩
    have whole := length_drop (s := wire name) here (by omega)
    rw [sizeT]
    omega

end Failed

/-- Whatever is received, it is handled as it should be exactly when the condition holds. -/
theorem right_iff_meets (hosts : List HostInfo) (m : Memory) (r : Received) :
    Right hosts m r ↔ Meets hosts m r := by
  have header : headerSize = 12 := rfl
  cases r with
  | failed =>
      by_cases one : OneQuestion m.inbuf.val
      · exact right_failed_of_counts one
      · apply iff_of_true
        · exact right_failed_iff.mpr ⟨_, _, serve_failed.trans (if_neg one)⟩
        · exact fun h => absurd h one
  | datagram message fits =>
      by_cases asked : OneQuestion message ∧ ∃ name type rest, Question message name type rest
      · obtain ⟨one, name, type, rest, q⟩ := asked
        exact right_iff_of_question q one
      · have silent : ∀ reply, ¬ Answers hosts (.datagram message fits) reply := by
          rintro reply ⟨name, h, query, -⟩
          obtain ⟨rest, body⟩ := query.question
          exact asked ⟨query.counts, name, _, rest, rfl, body⟩
        apply iff_of_true
        · by_cases long : headerSize < message.length
          · have served : serve hosts m (.datagram message fits) = _ := serve_datagram long
            by_cases one : OneQuestion message
            · have endless := fun ends =>
                asked ⟨one, (@ends_iff m message fits long).mp ends⟩
              rcases @walk_endless hosts _ message.length _ _ endless (by omega) with
                ⟨m', printed, walked, -⟩ | ⟨-, beyond⟩
              · exact right_of_silent (served.trans ((if_pos one).trans walked)) silent
              · omega
            · exact right_of_silent (served.trans (if_neg one)) silent
          · exact right_of_silent (serve_short (Nat.le_of_not_lt long)) silent
        · intro one name type rest typed body
          exact absurd ⟨one, name, type, rest, typed, body⟩ asked

/-- The memory when the program starts. -/
def Memory.start : Memory where
  inbuf := full 1024 0
  outbuf := full 1024 0
  hostbuf := full 1024 0

/-- `pso.jp`, as it may be configured. -/
def psoHost : HostInfo where
  name := [112, 115, 111, 46, 106, 112]
  addr := ⟨192, 168, 0, 1⟩
  text := by decide

/-- The name of that host in a query. -/
def psoName : List Label :=
  [⟨[112, 115, 111], by decide, by decide⟩, ⟨[106, 112], by decide, by decide⟩]

/-- A query for the IPv6 address of the host. -/
def aaaaQuery : List UInt8 :=
  [0x12, 0x34, 0x01, 0x00, 0, 1, 0, 0, 0, 0, 0, 0, 3, 112, 115, 111, 2, 106, 112, 0, 0, 28, 0, 1]

/-- A query of another type is answered. -/
theorem other_type_answered :
    ¬ Right [psoHost] Memory.start (.datagram aaaaQuery (by decide)) := by
  have q : Question aaaaQuery psoName [0, 28, 0, 1] [] := ⟨rfl, rfl⟩
  have one : OneQuestion aaaaQuery := by decide
  rw [right_iff_of_question q one, meets_iff q one]
  rintro ⟨-, ⟨typed, -⟩ | long | nobody⟩
  · exact absurd typed (by decide)
  · exact absurd long (by decide)
  · exact nobody psoHost List.mem_cons_self (by decide)

end Sylverant.Dns
