/-
# The list of files for a patch client

Before it sends files the patch server goes through all the files it has and asks the client
about each one, in the directory that the file is in. It carries the directory of the last file
along and moves the client from there, so that a wrong move would put all later files into wrong
places. The directory of a file is copied into a buffer of fixed size, whatever its length.

Sending succeeds.
-/

import Sylverant.Patch.Delivery

namespace Sylverant.Patch

/-! ## The list -/

/-- The packets of the list: the moves, the files and the end. -/
inductive ListPkt
  | move (pkt : Pkt)
  | fileInfo (patchId : UInt32) (filename : Path)
  | infoFinished
  deriving DecidableEq

/-- The packets that a function sends, and what it returns. -/
abbrev ListSends := List ListPkt × Int

/-- `send_file_info`. -/
def sendFileInfo (idx : UInt32) (fn : Path) : ListSends :=
  if fn.length > 32 then ([], -1) else ([.fileInfo idx fn], 0)

/-- The loop of `send_file_list` and what is behind it, with the number of the next file and the
directory that the client is in. It is `none` where a directory is copied that does not fit into
its buffer. -/
def sendFiles : UInt32 → Path → List Path → Option ListSends
  | _, dir, [] =>
      let r := changeDirectory dir []
      if r.2 ≠ 0 then some (r.1.map .move, -3)
      else some (r.1.map .move ++ [.move .oneDirUp, .infoFinished], 0)
  | filenum, dir, i :: q =>
      let dir2 := dirName i
      if dir2.length ≥ pathMax then none
      else
        let r := changeDirectory dir dir2
        if r.2 ≠ 0 then some (r.1.map .move, -3)
        else
          let s := sendFileInfo filenum (baseName i)
          if s.2 ≠ 0 then some (r.1.map .move ++ s.1, -2)
          else
            match sendFiles (filenum + 1) dir2 q with
            | none => none
            | some rest => some (r.1.map .move ++ s.1 ++ rest.1, rest.2)

/-- `send_file_list`. -/
def sendFileList (q : List Path) : Option ListSends :=
  let first := sendChdir ['.']
  if first.2 ≠ 0 then some (first.1.map .move, -1)
  else
    match sendFiles 0 [] q with
    | none => none
    | some rest => some (first.1.map .move ++ rest.1, rest.2)

/-! ## What the client makes of it -/

/-- The parts of a path between the slashes. -/
def parts (path : Path) : List Path := path.splitOn '/'

/-- The directories above a file, where a repeated slash counts as one. -/
def directory (path : Path) : List Path := (parts path).dropLast.filter (· ≠ [])

/-- The name of a file in its directory. -/
def fileName (path : Path) : Path := (parts path).getLast?.getD []

/-- The base directory of a client, which it was sent to by the first packet. -/
def base : List Path := [['.']]

/-- Go where a packet leads, from a directory that is given by its parts. -/
def follow (cur : List Path) : ListPkt → Option (List Path)
  | .move pkt => walk cur [pkt]
  | _ => some cur

/-- The directory that the client is in after the packets. -/
def replay (cur : List Path) (out : List ListPkt) : Option (List Path) := out.foldlM follow cur

/-- The packet is about a file. -/
def ListPkt.isInfo : ListPkt → Bool
  | .fileInfo _ _ => true
  | _ => false

/-- How many files there were among the packets. -/
def infos (out : List ListPkt) : Nat := out.countP ListPkt.isInfo

/-- The packets lead the client through the directories of the files. The packet about each file
has the position of the file, is at that position among the packets about files, and finds the
client in the directory of the file. The end of the list comes only after all files, with the
client back in the base directory, and one directory up from there. -/
structure Leads (q : List Path) (out : List ListPkt) (rv : Int) : Prop where
  files : ∀ front n name back, out = front ++ .fileInfo n name :: back →
    ∃ i, q[n.toNat]? = some i ∧ infos front = n.toNat ∧ name = fileName i ∧
      replay [] front = some (base ++ directory i)
  finished : rv = 0 → ∃ front, out = front ++ [.move .oneDirUp, .infoFinished] ∧
    infos front = q.length ∧ replay [] front = some base
  stopped : rv ≠ 0 → .infoFinished ∉ out

/-! ## The condition -/

/-- The names of a file fit into packets. -/
def Fits (i : Path) : Prop := (∀ t ∈ directory i, t.length ≤ 64) ∧ (fileName i).length ≤ 32

/-- The directory of each file that the server comes to fits into its buffer, and the number of
each file that it sends fits into the packet. -/
def Manageable (q : List Path) : Prop :=
  ∀ front i back, q = front ++ i :: back → (∀ j ∈ front, Fits j) →
    (dirName i).length < pathMax ∧ (Fits i → front.length < 2 ^ 32)

/-! ## Paths -/

section Paths

variable {name : Path}

theorem takeWhile_clean (clean : '/' ∉ name) (rest : Path) :
    (name ++ rest).takeWhile (· ≠ '/') = name ++ rest.takeWhile (· ≠ '/') := by
  apply List.takeWhile_append_of_pos
  intro c h
  exact decide_eq_true fun slash => clean (slash ▸ h)

/-- What the last slash divides. -/
theorem baseName_append (dir : Path) (clean : '/' ∉ name) :
    baseName (dir ++ '/' :: name) = name := by
  have back : '/' ∉ name.reverse := fun h => clean (List.mem_reverse.mp h)
  have stop : ('/' :: dir.reverse).takeWhile (· ≠ '/') = [] :=
    List.takeWhile_cons_of_neg (by decide)
  rw [baseName, List.reverse_append, List.reverse_cons, List.append_assoc, List.singleton_append,
    takeWhile_clean back, stop, List.append_nil, List.reverse_reverse]

theorem dirName_append (dir : Path) (clean : '/' ∉ name) :
    dirName (dir ++ '/' :: name) = dir := by
  have slash : '/' ∈ dir ++ '/' :: name := List.mem_append_right dir List.mem_cons_self
  have length : (dir ++ '/' :: name).length - name.length - 1 = dir.length := by
    rw [List.length_append, List.length_cons]
    omega
  rw [dirName, if_pos slash, baseName_append dir clean, length, List.take_left]

/-- A path has no slash, or a last one. -/
theorem path_cases (path : Path) :
    '/' ∉ path ∨ ∃ dir name, path = dir ++ '/' :: name ∧ '/' ∉ name := by
  by_cases slash : '/' ∈ path
  · right
    obtain ⟨front, back, split, clean⟩ :=
      List.eq_append_cons_of_mem (List.mem_reverse.mpr slash)
    refine ⟨back.reverse, front.reverse, ?_, fun h => clean (List.mem_reverse.mp h)⟩
    have path_eq := congrArg List.reverse split
    rwa [List.reverse_reverse, List.reverse_append, List.reverse_cons, List.append_assoc,
      List.singleton_append] at path_eq
  · exact Or.inl slash

theorem parts_append (dir : Path) (clean : '/' ∉ name) :
    parts (dir ++ '/' :: name) = parts dir ++ [name] := by
  rw [parts, List.splitOn_append_cons_self, List.splitOn_eq_singleton clean, parts]

theorem baseName_eq (path : Path) : baseName path = fileName path := by
  rcases path_cases path with clean | ⟨dir, name, rfl, clean⟩
  · have back : '/' ∉ path.reverse := fun h => clean (List.mem_reverse.mp h)
    have whole := takeWhile_clean back []
    rw [List.append_nil, List.takeWhile_nil, List.append_nil] at whole
    rw [baseName, whole, List.reverse_reverse, fileName, parts, List.splitOn_eq_singleton clean]
    rfl
  · rw [baseName_append dir clean, fileName, parts_append dir clean, List.getLast?_concat,
      Option.getD_some]

theorem tokens_eq (path : Path) : tokens path = (parts path).filter (· ≠ []) := by
  have alone : (parts path).modifyHead ([] ++ ·) = parts path :=
    congrFun List.modifyHead_id (parts path)
  rw [tokens, CString.tokensFrom_eq_splitOn]
  exact congrArg (List.filter _) alone

theorem tokens_dirName (path : Path) : tokens (dirName path) = directory path := by
  rcases path_cases path with clean | ⟨dir, name, rfl, clean⟩
  · rw [dirName, if_neg clean, directory, parts, List.splitOn_eq_singleton clean]
    rfl
  · rw [dirName_append dir clean, directory, parts_append dir clean, List.dropLast_concat,
      tokens_eq]

end Paths

/-! ## Moves -/

section Moves

variable {cur dst : Path}

theorem goDown_done_iff (dirs : List Path) :
    (goDown dirs).2 = 0 ↔ ∀ t ∈ dirs, t.length ≤ 64 := by
  induction dirs with
  | nil => exact iff_of_true rfl fun t h => nomatch h
  | cons t dirs ih =>
      rw [List.forall_mem_cons, ← ih, goDown, sendChdir]
      by_cases long : t.length > 64
      · rw [if_pos long]
        exact iff_of_false (show (-1 : Int) ≠ 0 by decide) fun h => absurd h.1 (Nat.not_le.mpr long)
      · rw [if_neg long]
        exact (and_iff_right (Nat.le_of_not_lt long)).symm

/-- The client gets to a directory exactly if its parts fit into packets. -/
theorem changeDirectory_done_iff (fit : ∀ t ∈ tokens cur, t.length ≤ 64) :
    (changeDirectory cur dst).2 = 0 ↔ ∀ t ∈ tokens dst, t.length ≤ 64 := by
  constructor
  · rw [changeDirectory]
    split
    · rename_i same
      exact fun _ => same ▸ fit
    · obtain ⟨common, up, down⟩ := whereApart_append (tokens cur) (tokens dst)
      intro done t h
      rw [down] at h
      rcases List.mem_append.mp h with shared | below
      · exact fit t (up ▸ List.mem_append_left _ shared)
      · exact (goDown_done_iff _).mp done t below
  · intro short
    rw [changeDirectory_eq short]

/-- The moves lead on below any directory. -/
theorem walk_moves_below (above cur dst : List Path) :
    walk (above ++ cur) (moves cur dst) = some (above ++ dst) := by
  obtain ⟨common, up, down⟩ := whereApart_append cur dst
  have below : walk (above ++ (common ++ (whereApart cur dst).1)) (moves cur dst) =
      some (above ++ (common ++ (whereApart cur dst).2)) := by
    rw [← List.append_assoc, moves, walk_up, walk_down, List.append_assoc]
  rwa [← up, ← down] at below

theorem walk_cons (cur : List Path) (pkt : Pkt) (out : List Pkt) :
    walk cur (pkt :: out) = (walk cur [pkt]).bind fun mid => walk mid out := by
  cases pkt with
  | oneDirUp => by_cases empty : cur = [] <;> simp [walk, empty]
  | _ => simp [walk]

theorem replay_append (cur : List Path) (out out' : List ListPkt) :
    replay cur (out ++ out') = (replay cur out).bind fun mid => replay mid out' :=
  List.foldlM_append

theorem replay_move (cur : List Path) (out : List Pkt) :
    replay cur (out.map .move) = walk cur out := by
  induction out generalizing cur with
  | nil => rw [walk]; rfl
  | cons pkt out ih =>
      rw [walk_cons, List.map_cons, replay, List.foldlM_cons]
      exact congrArg (Option.bind (walk cur [pkt])) (funext ih)

theorem infos_append (out out' : List ListPkt) : infos (out ++ out') = infos out + infos out' :=
  List.countP_append

theorem infos_move (out : List Pkt) : infos (out.map .move) = 0 := by
  rw [infos, List.countP_map, List.countP_eq_zero]
  exact fun pkt _ h => nomatch h

end Moves

/-! ## One file -/

section OneFile

variable {filenum : UInt32} {dir i : Path} {q : List Path}

/-- The moves to the directory of a file. -/
def movesTo (dir i : Path) : List ListPkt := (moves (tokens dir) (directory i)).map .move

theorem sendFiles_nil (dir : Path) :
    sendFiles filenum dir [] =
      some ((moves (tokens dir) []).map .move ++ [.move .oneDirUp, .infoFinished], 0) := by
  have home := @changeDirectory_eq dir [] fun t h => nomatch h
  rw [sendFiles, home]
  rfl

theorem sendFiles_long (long : pathMax ≤ (dirName i).length) :
    sendFiles filenum dir (i :: q) = none := by
  rw [sendFiles]
  exact if_pos long

/-- A file whose names fit is announced, and then come the others. -/
theorem sendFiles_next (room : (dirName i).length < pathMax) (fits : Fits i) :
    sendFiles filenum dir (i :: q) =
      (sendFiles (filenum + 1) (dirName i) q).map fun rest =>
        (movesTo dir i ++ .fileInfo filenum (fileName i) :: rest.1, rest.2) := by
  have short : ¬ (dirName i).length ≥ pathMax := Nat.not_le.mpr room
  have there : changeDirectory dir (dirName i) = (moves (tokens dir) (directory i), 0) := by
    rw [changeDirectory_eq fun t h => fits.1 t (tokens_dirName i ▸ h), tokens_dirName]
  have info : sendFileInfo filenum (baseName i) = ([.fileInfo filenum (fileName i)], 0) := by
    rw [sendFileInfo, baseName_eq, if_neg (Nat.not_lt.mpr fits.2)]
  rw [sendFiles]
  dsimp only
  rw [if_neg short, there, info]
  cases sendFiles (filenum + 1) (dirName i) q with
  | none => rfl
  | some rest =>
      rw [Option.map_some, movesTo, List.append_cons _ _ rest.1]
      rfl

/-- A file whose names do not fit is the last one that the server comes to. -/
theorem sendFiles_stopped (fit : ∀ t ∈ tokens dir, t.length ≤ 64)
    (room : (dirName i).length < pathMax) (unfit : ¬ Fits i) :
    ∃ (pkts : List Pkt) (rv : Int),
      sendFiles filenum dir (i :: q) = some (pkts.map .move, rv) ∧ rv ≠ 0 := by
  have short : ¬ (dirName i).length ≥ pathMax := Nat.not_le.mpr room
  rw [sendFiles]
  dsimp only
  rw [if_neg short]
  by_cases failed : (changeDirectory dir (dirName i)).2 ≠ 0
  · rw [if_pos failed]
    exact ⟨_, -3, rfl, by decide⟩
  · have dirs := (changeDirectory_done_iff fit).mp (not_not.mp failed)
    rw [tokens_dirName] at dirs
    have long : (baseName i).length > 32 := by
      rw [baseName_eq]
      exact Nat.lt_of_not_le fun h => unfit ⟨dirs, h⟩
    rw [if_neg failed, sendFileInfo, if_pos long, List.append_nil]
    exact ⟨_, -2, rfl, by decide⟩

theorem replay_movesTo (dir i : Path) :
    replay (base ++ tokens dir) (movesTo dir i) = some (base ++ directory i) := by
  rw [movesTo, replay_move, walk_moves_below]

theorem tokens_dirName_fit (fits : Fits i) : ∀ t ∈ tokens (dirName i), t.length ≤ 64 :=
  fun t h => fits.1 t (tokens_dirName i ▸ h)

theorem fileInfo_not_move {n : UInt32} {name : Path} (pkts : List Pkt) :
    ListPkt.fileInfo n name ∉ pkts.map ListPkt.move := by
  intro h
  obtain ⟨pkt, -, same⟩ := List.mem_map.mp h
  exact nomatch same

/-- A packet about a file behind some moves is the one that comes next, or a later one. -/
theorem next_or_later {pkts : List Pkt} {m n : UInt32} {file name : Path}
    {rest front back : List ListPkt}
    (h : pkts.map ListPkt.move ++ .fileInfo m file :: rest = front ++ .fileInfo n name :: back) :
    front = pkts.map .move ∧ n = m ∧ name = file ∨
      ∃ later, front = pkts.map .move ++ .fileInfo m file :: later ∧
        rest = later ++ .fileInfo n name :: back := by
  rcases List.append_eq_append_iff.mp h with ⟨behind, split, tail⟩ | ⟨before, split, tail⟩
  · cases behind with
    | nil =>
        obtain ⟨rfl, rfl⟩ := ListPkt.fileInfo.inj (List.cons.inj tail).1
        exact Or.inl ⟨by rw [split, List.append_nil], rfl, rfl⟩
    | cons pkt later =>
        obtain ⟨rfl, behind⟩ := List.cons.inj tail
        exact Or.inr ⟨later, split, behind⟩
  · cases before with
    | nil =>
        rw [List.append_nil] at split
        obtain ⟨same, -⟩ := List.cons.inj tail
        obtain ⟨rfl, rfl⟩ := ListPkt.fileInfo.inj same
        exact Or.inl ⟨split.symm, rfl, rfl⟩
    | cons pkt before =>
        obtain ⟨rfl, -⟩ := List.cons.inj tail
        have among : ListPkt.fileInfo n name ∈ pkts.map ListPkt.move :=
          split ▸ List.mem_append_right front List.mem_cons_self
        exact absurd among (fileInfo_not_move pkts)

end OneFile

/-! ## All files -/

/-- What is sent for a packet about a file among the files from `filenum` on. -/
structure Announces (filenum : UInt32) (cur : List Path) (q : List Path) (front : List ListPkt)
    (n : UInt32) (name : Path) (before : List Path) (i : Path) (after : List Path) : Prop where
  place : q = before ++ i :: after
  fits : ∀ j ∈ before, Fits j
  fit : Fits i
  number : n = filenum + UInt32.ofNat before.length
  counted : infos front = before.length
  name : name = fileName i
  there : replay cur front = some (base ++ directory i)

/-- What the packets for the files do, from a directory on. -/
structure LeadsOn (filenum : UInt32) (cur : List Path) (q : List Path) (out : List ListPkt)
    (rv : Int) : Prop where
  files : ∀ front n name back, out = front ++ .fileInfo n name :: back →
    ∃ before i after, Announces filenum cur q front n name before i after
  finished : rv = 0 → ∃ front, out = front ++ [.move .oneDirUp, .infoFinished] ∧
    infos front = q.length ∧ replay cur front = some base
  stopped : rv ≠ 0 → .infoFinished ∉ out

section AllFiles

variable {filenum : UInt32} {cur : List Path} {dir i : Path} {q : List Path}
  {out : List ListPkt} {rv : Int}

theorem replay_next (dir i : Path) (n : UInt32) (name : Path) (out : List ListPkt) :
    replay (base ++ tokens dir) (movesTo dir i ++ .fileInfo n name :: out) =
      replay (base ++ directory i) out := by
  rw [replay_append, replay_movesTo]
  rfl

theorem infos_next (dir i : Path) (n : UInt32) (name : Path) (out : List ListPkt) :
    infos (movesTo dir i ++ .fileInfo n name :: out) = infos out + 1 := by
  rw [infos_append, movesTo, infos_move, Nat.zero_add]
  exact List.countP_cons_of_pos rfl

theorem LeadsOn.nil (dir : Path) :
    LeadsOn filenum (base ++ tokens dir) []
      ((moves (tokens dir) []).map .move ++ [.move .oneDirUp, .infoFinished]) 0 where
  files front n name back h := by
    have among : ListPkt.fileInfo n name ∈
        (moves (tokens dir) []).map ListPkt.move ++ [.move .oneDirUp, .infoFinished] :=
      h ▸ List.mem_append_right front List.mem_cons_self
    rcases List.mem_append.mp among with move | finish
    · exact absurd move (fileInfo_not_move _)
    · simp at finish
  finished _ := by
    refine ⟨_, rfl, infos_move _, ?_⟩
    rw [replay_move, walk_moves_below, List.append_nil]
  stopped h := absurd rfl h

theorem LeadsOn.stop (pkts : List Pkt) (failed : rv ≠ 0) :
    LeadsOn filenum cur q (pkts.map .move) rv where
  files front n name back h := by
    have among : ListPkt.fileInfo n name ∈ pkts.map ListPkt.move :=
      h ▸ List.mem_append_right front List.mem_cons_self
    exact absurd among (fileInfo_not_move pkts)
  finished h := absurd h failed
  stopped _ h := by
    obtain ⟨pkt, -, same⟩ := List.mem_map.mp h
    exact nomatch same

theorem LeadsOn.next (dir : Path) (fits : Fits i)
    (h : LeadsOn (filenum + 1) (base ++ directory i) q out rv) :
    LeadsOn filenum (base ++ tokens dir) (i :: q)
      (movesTo dir i ++ .fileInfo filenum (fileName i) :: out) rv where
  files front n name back split := by
    rcases next_or_later split with ⟨rfl, rfl, rfl⟩ | ⟨later, rfl, tail⟩
    · exact ⟨[], i, q,
        { place := rfl
          fits := fun j h => nomatch h
          fit := fits
          number := (UInt32.add_zero n).symm
          counted := infos_move _
          name := rfl
          there := replay_movesTo dir i }⟩
    · obtain ⟨before, j, after, announces⟩ := h.files later n name back tail
      refine ⟨i :: before, j, after, ?_⟩
      exact
        { place := congrArg (i :: ·) announces.place
          fits := List.forall_mem_cons.mpr ⟨fits, announces.fits⟩
          fit := announces.fit
          number := by
            rw [announces.number, List.length_cons, UInt32.add_assoc, UInt32.add_comm 1]
            congr 1
            exact (UInt32.ofNat_add before.length 1).symm
          counted := (infos_next dir i filenum (fileName i) later).trans
            (congrArg (· + 1) announces.counted)
          name := announces.name
          there := (replay_next dir i filenum (fileName i) later).trans announces.there }
  finished done := by
    obtain ⟨front, rfl, counted, home⟩ := h.finished done
    refine ⟨movesTo dir i ++ .fileInfo filenum (fileName i) :: front, ?_, ?_, ?_⟩
    · rw [List.append_assoc, List.cons_append]
    · rw [infos_next, counted, List.length_cons]
    · rw [replay_next, home]
  stopped failed h' := by
    rcases List.mem_append.mp h' with move | rest
    · obtain ⟨pkt, -, same⟩ := List.mem_map.mp move
      exact nomatch same
    · exact h.stopped failed ((List.mem_cons.mp rest).resolve_left fun same => nomatch same)

/-- Whatever is sent leads the client through the files. -/
theorem leadsOn_of_sent (fit : ∀ t ∈ tokens dir, t.length ≤ 64)
    (sent : sendFiles filenum dir q = some (out, rv)) :
    LeadsOn filenum (base ++ tokens dir) q out rv := by
  induction q generalizing filenum dir out with
  | nil =>
      rw [sendFiles_nil] at sent
      obtain ⟨rfl, rfl⟩ := Prod.mk.inj (Option.some.inj sent)
      exact LeadsOn.nil dir
  | cons i q ih =>
      by_cases long : pathMax ≤ (dirName i).length
      · rw [sendFiles_long long] at sent
        exact nomatch sent
      · have room := Nat.lt_of_not_le long
        by_cases fits : Fits i
        · rw [sendFiles_next room fits] at sent
          obtain ⟨rest, others, same⟩ := Option.map_eq_some_iff.mp sent
          obtain ⟨rfl, rfl⟩ := Prod.mk.inj same
          have leads := ih (tokens_dirName_fit fits) others
          rw [tokens_dirName] at leads
          exact LeadsOn.next dir fits leads
        · obtain ⟨pkts, rv', stopped, failed⟩ := @sendFiles_stopped filenum dir i q fit room fits
          rw [stopped] at sent
          obtain ⟨rfl, rfl⟩ := Prod.mk.inj (Option.some.inj sent)
          exact LeadsOn.stop pkts failed

/-- Nothing is sent when the server comes to a directory that is too long. -/
theorem sendFiles_eq_none_iff (fit : ∀ t ∈ tokens dir, t.length ≤ 64) :
    sendFiles filenum dir q = none ↔ ∃ front i back, q = front ++ i :: back ∧
      (∀ j ∈ front, Fits j) ∧ pathMax ≤ (dirName i).length := by
  induction q generalizing filenum dir with
  | nil =>
      rw [sendFiles_nil]
      refine iff_of_false (fun h => nomatch h) ?_
      rintro ⟨front, i, back, split, -⟩
      simp at split
  | cons i q ih =>
      by_cases long : pathMax ≤ (dirName i).length
      · exact iff_of_true (sendFiles_long long) ⟨[], i, q, rfl, fun j h => (nomatch h), long⟩
      · have room := Nat.lt_of_not_le long
        by_cases fits : Fits i
        · rw [sendFiles_next room fits, Option.map_eq_none_iff, ih (tokens_dirName_fit fits)]
          constructor
          · rintro ⟨front, j, back, rfl, before, far⟩
            exact ⟨i :: front, j, back, rfl, List.forall_mem_cons.mpr ⟨fits, before⟩, far⟩
          · rintro ⟨front, j, back, split, before, far⟩
            cases front with
            | nil =>
                obtain ⟨rfl, -⟩ := List.cons.inj split
                exact absurd far long
            | cons i' front =>
                obtain ⟨rfl, behind⟩ := List.cons.inj split
                exact ⟨front, j, back, behind, (List.forall_mem_cons.mp before).2, far⟩
        · obtain ⟨pkts, rv', stopped, -⟩ := @sendFiles_stopped filenum dir i q fit room fits
          rw [stopped]
          refine iff_of_false (fun h => nomatch h) ?_
          rintro ⟨front, j, back, split, before, far⟩
          cases front with
          | nil =>
              obtain ⟨rfl, -⟩ := List.cons.inj split
              exact absurd far long
          | cons i' front =>
              obtain ⟨rfl, -⟩ := List.cons.inj split
              exact absurd (before i List.mem_cons_self) fits

/-- Each file that the server comes to is announced, if its names fit. -/
theorem sends_info {front back : List Path} (before : ∀ j ∈ front, Fits j) (fits : Fits i)
    (sent : sendFiles filenum dir (front ++ i :: back) = some (out, rv)) :
    ∃ out₁ out₂, infos out₁ = front.length ∧ out = out₁ ++
      .fileInfo (filenum + UInt32.ofNat front.length) (fileName i) :: out₂ := by
  induction front generalizing filenum dir out with
  | nil =>
      by_cases long : pathMax ≤ (dirName i).length
      · rw [List.nil_append, sendFiles_long long] at sent
        exact nomatch sent
      · rw [List.nil_append, sendFiles_next (Nat.lt_of_not_le long) fits] at sent
        obtain ⟨rest, -, same⟩ := Option.map_eq_some_iff.mp sent
        obtain ⟨rfl, rfl⟩ := Prod.mk.inj same
        refine ⟨movesTo dir i, rest.1, infos_move _, ?_⟩
        exact congrArg (fun n => movesTo dir i ++ .fileInfo n (fileName i) :: rest.1)
          (UInt32.add_zero filenum).symm
  | cons j front ih =>
      obtain ⟨fits', before⟩ := List.forall_mem_cons.mp before
      by_cases long : pathMax ≤ (dirName j).length
      · rw [List.cons_append, sendFiles_long long] at sent
        exact nomatch sent
      · rw [List.cons_append, sendFiles_next (Nat.lt_of_not_le long) fits'] at sent
        obtain ⟨rest, others, same⟩ := Option.map_eq_some_iff.mp sent
        obtain ⟨rfl, rfl⟩ := Prod.mk.inj same
        obtain ⟨out₁, out₂, counted, split⟩ := ih before others
        have number : filenum + 1 + UInt32.ofNat front.length =
            filenum + UInt32.ofNat (j :: front).length := by
          rw [List.length_cons, UInt32.ofNat_add, UInt32.add_assoc,
            UInt32.add_comm (UInt32.ofNat front.length)]
          rfl
        refine ⟨movesTo dir j ++ .fileInfo filenum (fileName j) :: out₁, out₂,
          (infos_next dir j filenum (fileName j) out₁).trans (congrArg (· + 1) counted), ?_⟩
        rw [← number, split, List.append_assoc, List.cons_append]

end AllFiles

/-! ## The whole list -/

section WholeList

variable {q : List Path} {out : List ListPkt} {rv : Int}

/-- The packet that leads to the base directory. -/
def goToBase : ListPkt := .move (.setDirectory ['.'])

theorem sendFileList_eq (q : List Path) :
    sendFileList q = (sendFiles 0 [] q).map fun rest => (goToBase :: rest.1, rest.2) := by
  rw [sendFileList]
  cases sendFiles 0 [] q with
  | none => rfl
  | some rest => rfl

theorem infos_goToBase (out : List ListPkt) : infos (goToBase :: out) = infos out :=
  List.countP_cons_of_neg fun h => nomatch h

theorem tokens_nil_fit : ∀ t ∈ tokens [], t.length ≤ 64 := fun _ h => nomatch h

/-- The packets of a list that is manageable lead the client. -/
theorem leads_of_leadsOn (manageable : Manageable q) (h : LeadsOn 0 base q out rv) :
    Leads q (goToBase :: out) rv where
  files front n name back split := by
    cases front with
    | nil => exact nomatch (List.cons.inj split).1
    | cons first front =>
        obtain ⟨rfl, behind⟩ := List.cons.inj split
        obtain ⟨before, i, after, announces⟩ := h.files front n name back behind
        have few := (manageable before i after announces.place announces.fits).2 announces.fit
        have number : n.toNat = before.length := by
          rw [announces.number, UInt32.zero_add, UInt32.toNat_ofNat_of_lt' few]
        refine ⟨i, ?_, ?_, announces.name, announces.there⟩
        · rw [number, announces.place, List.getElem?_append_right (Nat.le_refl _), Nat.sub_self]
          rfl
        · rw [infos_goToBase, announces.counted, number]
  finished done := by
    obtain ⟨front, rfl, counted, home⟩ := h.finished done
    exact ⟨goToBase :: front, rfl, (infos_goToBase front).trans counted, home⟩
  stopped failed h' :=
    h.stopped failed ((List.mem_cons.mp h').resolve_left fun same => nomatch same)

/-- The list of files leads every client through the directories of the files exactly when it is
manageable. -/
theorem leads_iff (q : List Path) :
    (∃ out rv, sendFileList q = some (out, rv) ∧ Leads q out rv) ↔ Manageable q := by
  constructor
  · rintro ⟨out, rv, sent, leads⟩
    rw [sendFileList_eq] at sent
    obtain ⟨rest, files, same⟩ := Option.map_eq_some_iff.mp sent
    obtain ⟨rfl, rfl⟩ := Prod.mk.inj same
    rintro front i back rfl before
    refine ⟨?_, fun fits => ?_⟩
    · refine Nat.lt_of_not_le fun long => ?_
      have none := (@sendFiles_eq_none_iff 0 [] _ tokens_nil_fit).mpr
        ⟨front, i, back, rfl, before, long⟩
      rw [none] at files
      exact nomatch files
    · obtain ⟨out₁, out₂, counted, split⟩ := sends_info before fits files
      obtain ⟨-, -, position, -⟩ := leads.files (goToBase :: out₁) _ _ out₂
        (congrArg (goToBase :: ·) split)
      rw [infos_goToBase, counted, UInt32.zero_add, UInt32.toNat_ofNat'] at position
      omega
  · intro manageable
    cases sent : sendFiles 0 [] q with
    | none =>
        obtain ⟨front, i, back, split, before, long⟩ :=
          (sendFiles_eq_none_iff tokens_nil_fit).mp sent
        exact absurd (manageable front i back split before).1 (Nat.not_lt.mpr long)
    | some rest =>
        refine ⟨goToBase :: rest.1, rest.2, ?_, ?_⟩
        · rw [sendFileList_eq, sent]
          rfl
        · exact leads_of_leadsOn manageable (leadsOn_of_sent tokens_nil_fit sent)

example : sendFileList [['a', '/', 'x'], ['a', '/', '/', 'b', '/', 'y'], ['z']] =
    some ([.move (.setDirectory ['.']), .move (.setDirectory ['a']), .fileInfo 0 ['x'],
      .move (.setDirectory ['b']), .fileInfo 1 ['y'], .move .oneDirUp, .move .oneDirUp,
      .fileInfo 2 ['z'], .move .oneDirUp, .infoFinished], 0) := by decide

/-- A file below so many directories. -/
def deep (n : Nat) : Path := (List.replicate n ['a', '/']).flatten ++ ['b']

/-- A file below 2049 directories has a directory that does not fit into the buffer. -/
theorem deep_not_led :
    ¬ ∃ out rv, sendFileList [deep 2049] = some (out, rv) ∧ Leads [deep 2049] out rv := by
  have split : deep 2049 =
      ((List.replicate 2048 ['a', '/']).flatten ++ ['a']) ++ '/' :: ['b'] := by
    rw [deep, List.replicate_succ', List.flatten_append, List.append_assoc, List.append_assoc]
    rfl
  have dir : (dirName (deep 2049)).length = 4097 := by
    rw [split, dirName_append _ (by decide), List.length_append, List.length_flatten,
      List.map_replicate, List.sum_replicate_nat]
    rfl
  rintro ⟨out, rv, sent, -⟩
  have long : pathMax ≤ (dirName (deep 2049)).length := by
    rw [dir]
    decide
  rw [sendFileList_eq, sendFiles_long long] at sent
  exact nomatch sent

end WholeList

end Sylverant.Patch
