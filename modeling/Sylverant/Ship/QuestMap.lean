/-
# The maps of quests

A quest brings its own objects and enemies, in sections of its data. The ship keeps them
in a cache file, in the form in which a game needs them, and a game that starts the quest
loads them from there. The definitions follow `mapdata.c`; files are given by their
contents, and writing to them does not fail. Whether the C library finds memory is up to
it, also where none is asked for.
-/

import Sylverant.Archive.Files
import Sylverant.Library.Loop
import Sylverant.Ship.MapParse
import Sylverant.Ship.Version

namespace Sylverant.Ship.QuestMap

open Function (update)
open RandomAccess (Image Stream)
open Sylverant.Archive (le32 ofLe32)

/-- What comes of asking for a number of bytes. -/
structure Memory where
  malloc : Nat → Bool
  realloc : Nat → Bool

/-! ## The data of a quest -/

/-- Bytes of the data. -/
def bytesAt (dat : Nat → UInt8) (pos n : Nat) : List UInt8 :=
  (List.range n).map fun i => dat (pos + i)

/-- A `uint32_t` of the data. -/
def u32At (dat : Nat → UInt8) (pos : Nat) : Nat := ofLe32 (bytesAt dat pos 4)

/-- `quest_dat_hdr_t` -/
structure QuestDatHdr where
  objType : Nat
  nextHdr : Nat
  area : Nat
  size : Nat

/-- The number of bytes of a header. -/
def hdrSize : Nat := 16

/-- The header at a position. -/
def hdrAt (dat : Nat → UInt8) (pos : Nat) : QuestDatHdr where
  objType := u32At dat pos
  nextHdr := u32At dat (pos + 4)
  area := u32At dat (pos + 8)
  size := u32At dat (pos + 12)

/-- `sizeof(map_object_t)` -/
def objectSize : Nat := 68

/-- `sizeof(map_enemy_t)` -/
def enemySize : Nat := 72

/-- The positions of the headers in `ptrs`, by area, and the number of objects. -/
structure Sections where
  objects : Nat → Option Nat := fun _ => none
  enemies : Nat → Option Nat := fun _ => none
  objCount : Nat := 0

/-- The loop of `parse_quest_objects`. -/
def parseLoop (dat : Nat → UInt8) (len : Nat) : Nat → Nat → Sections → Option Sections
  | 0, _, _ => none
  | rounds + 1, ptr, s =>
      if ptr < len then
        let hdr := hdrAt dat ptr
        let next := (ptr + hdr.nextHdr) % 2 ^ 32
        if hdr.objType = 0x01 then
          parseLoop dat len rounds next
            { s with
              objects := update s.objects hdr.area (some ptr)
              objCount := (s.objCount + hdr.size / objectSize) % 2 ^ 32 }
        else if hdr.objType = 0x02 then
          parseLoop dat len rounds next { s with enemies := update s.enemies hdr.area (some ptr) }
        else if hdr.objType = 0x03 then parseLoop dat len rounds next s
        else some s
      else some s

/-- `parse_quest_objects`. A loop that does not end after a round for each position has
come back to one, and never ends. -/
def parseQuestObjects (dat : Nat → UInt8) (len : Nat) : Option Sections :=
  parseLoop dat len (len + 1) 0 {}

/-! ## Writing the cache -/

/-- The entry of `map_enemy_t` at a position. -/
def mapEnemyAt (dat : Nat → UInt8) (pos : Nat) : MapEnemy where
  base := (u32At dat pos).toUInt32
  numClones := (dat (pos + 6)).toUInt16 ||| ((dat (pos + 7)).toUInt16 <<< 8)
  reserved10 := (u32At dat (pos + 48)).toUInt32
  skin := (u32At dat (pos + 64)).toUInt32

/-- The enemies of a section with some number of bytes. -/
def mapEnemies (dat : Nat → UInt8) (pos size : Nat) : List MapEnemy :=
  (List.range (size / enemySize)).map fun j => mapEnemyAt dat (pos + j * enemySize)

/-- `game_enemy_t` as it is stored. -/
def enemyBytes (e : GameEnemy) : List UInt8 :=
  le32 e.bpEntry.toNat ++ [e.rtIndex, UInt8.ofBitVec e.clientsHit, e.lastClient, e.dropDone]

/-- The `alt` of `cache_quest_enemies`. -/
def altArea (episode area : Nat) : Bool := episode = 3 ∧ area > 5 ∨ episode = 2 ∧ area > 15

/-- Write the objects of a section. -/
def putObjects (dat : Nat → UInt8) (pos : Nat) : Nat → Nat → Stream → Stream
  | 0, _, fp => fp
  | left + 1, j, fp =>
      putObjects dat pos left (j + 1) (fp.put (bytesAt dat (pos + j * objectSize) objectSize))

/-- A round of the loop over the areas that writes objects. -/
def cacheObjects (dat : Nat → UInt8) (s : Sections) (fp : Stream) (i : Nat) : Stream :=
  match s.objects i with
  | none => fp
  | some pos => putObjects dat (pos + hdrSize) ((hdrAt dat pos).size / objectSize) 0 fp

/-- A round of the loop over the areas that writes enemies. If it ends what the function
does, that is with the return value and what is in the file, or without either where an
array is freed a second time. -/
def cacheEnemies (mem : Memory) (dat : Nat → UInt8) (episode : Nat) (s : Sections) (i : Nat)
    (st : Stream × Nat) : Except (Option (Int × Image)) (Stream × Nat) :=
  match s.enemies i with
  | none => .ok st
  | some pos =>
      let hdr := hdrAt dat pos
      if ¬mem.malloc (8 * genSize) then .error (some (-4, st.1.image))
      else
        let ens := mapEnemies dat (pos + hdrSize) hdr.size
        let enemies := parseMap ens episode (altArea episode hdr.area)
        -- An array that is resized to nothing is freed if the C library returns no
        -- other one, and the function frees it again.
        if enemies.length = 0 ∧ ¬mem.realloc 0 then .error none
        else .ok (st.1.put (enemies.flatMap enemyBytes), (st.2 + enemies.length) % 2 ^ 32)

/-- `cache_quest_enemies`, with the return value and what is in the file, if it comes to
an end. -/
def cacheQuestEnemies (mem : Memory) (dat : Nat → UInt8) (sz episode : Nat) :
    Option (Int × Image) :=
  match parseQuestObjects dat sz with
  | none => none
  | some s =>
      let fp := (Stream.mk Image.empty 0).put (le32 s.objCount)
      let fp := (List.range 17).foldl (cacheObjects dat s) fp
      let offs := fp.pos
      match Loop.count (cacheEnemies mem dat episode s) 17 0 (fp.seek (offs + 4), 0) with
      | .error r => r
      | .ok (fp, index) => some (0, ((fp.seek offs).put (le32 index)).image)

/-! ## Loading -/

/-- `game_object_t` -/
structure GameObject where
  data : List UInt8
  flags : UInt32 := 0
  deriving DecidableEq

/-- `qenemy_t` -/
structure QuestEnemy where
  key : UInt32
  value : UInt32

/-- `sylverant_quest_t`, with its lists of monsters. -/
structure Quest where
  monsterTypes : List QuestEnemy
  monsterIds : List QuestEnemy

/-- `lobby_t`, with what a game has of the quest. An array is the list of those of its
entries that have been assigned to. -/
structure QuestGame where
  serverDrops : Bool
  difficulty : Nat
  event : Nat
  objCount : Nat
  objs : List GameObject
  enemyCount : Nat
  enemies : List GameEnemy
  numMtypes : Nat := 0
  mtypes : List QuestEnemy := []
  numMids : Nat := 0
  mids : List QuestEnemy := []

/-- Assign to the entry of an array with an index. -/
def assign {α : Type} (xs : List α) (i : Nat) (x : α) : List α := xs.take i ++ x :: xs.drop (i + 1)

/-- An object whose first bytes are read over. -/
def GameObject.overlay (bs : List UInt8) (o : GameObject) : GameObject :=
  { o with data := bs ++ o.data.drop bs.length }

/-- The loop that reads the objects. Where the file ends within an object, what there is of it
goes over the one that had been there. -/
def readObjects : Nat → Nat → Stream → List GameObject → Stream × List GameObject × Bool
  | 0, _, fp, objs => (fp, objs, true)
  | left + 1, i, fp, objs =>
      let (data, fp) := fp.get objectSize
      if data.length ≠ objectSize then (fp, objs.modify i (·.overlay data), false)
      else readObjects left (i + 1) fp (assign objs i { data })

/-- The enemy that eight bytes stand for. -/
def enemyOf : List UInt8 → GameEnemy
  | [b₀, b₁, b₂, b₃, rtIndex, clientsHit, lastClient, dropDone] =>
      { bpEntry := (ofLe32 [b₀, b₁, b₂, b₃]).toUInt32, rtIndex, clientsHit := clientsHit.toBitVec
        lastClient, dropDone }
  | _ => default

/-- An enemy whose first bytes are read over. -/
def overlayEnemy (bs : List UInt8) (e : GameEnemy) : GameEnemy :=
  enemyOf (bs ++ (enemyBytes e).drop bs.length)

/-- The enemies that bytes stand for. -/
def enemiesOf (bs : List UInt8) : List GameEnemy :=
  (List.range (bs.length / 8)).map fun i => enemyOf ((bs.drop (8 * i)).take 8)

/-- The kind of rare Rappy that an event brings. -/
def eventRappy (event : Nat) : UInt8 :=
  match event with
  | 1 => 79
  | 4 => 81
  | 5 => 80
  | _ => 51

/-- What is fixed up in an enemy: the data of Dark Falz, where the difficulty is not the
first one, and the special Rappies. -/
def fixup (difficulty event : Nat) (e : GameEnemy) : GameEnemy :=
  if e.bpEntry = 0x37 ∧ difficulty ≠ 0 then { e with bpEntry := 0x38 }
  else if e.rtIndex = 0xFF then { e with rtIndex := eventRappy event }
  else e

/-- The part of `load_quest_enemies` that reads the file. -/
def readCache (mem : Memory) (f : Image) (l : QuestGame) : QuestGame × Int :=
  let (buf, fp) := (Stream.mk f 0).get 4
  if buf.length ≠ 4 then (l, -2)
  else
    let cnt := ofLe32 buf
    let l := { l with objCount := cnt }
    if ¬mem.realloc (cnt * 72) then
      -- What is resized to nothing is freed.
      (if cnt = 0 then { l with objs := [] } else l, -3)
    else
      let (fp, objs, done) := readObjects cnt 0 fp (l.objs.take cnt)
      let l := { l with objs }
      if ¬done then (l, -4)
      else
        let (buf, fp) := fp.get 4
        if buf.length ≠ 4 then (l, -5)
        else
          let cnt := ofLe32 buf
          let l := { l with enemyCount := cnt }
          if ¬mem.realloc (cnt * 8) then (if cnt = 0 then { l with enemies := [] } else l, -6)
          else
            let (buf, _) := fp.get (8 * cnt)
            let enemies := enemiesOf buf
            if enemies.length ≠ cnt then
              let rest := (l.enemies.take cnt).drop enemies.length
              let part := buf.drop (8 * enemies.length)
              ({ l with enemies := enemies ++ rest.modifyHead (overlayEnemy part) }, -7)
            else ({ l with enemies := enemies.map (fixup l.difficulty l.event) }, 0)

/-- `CLIENT_LANG_COUNT` -/
def langCount : Nat := 8

/-- The quest with the monster list, where `qptr` gives the quest of the version for each
language. After the last language the loop has read the pointer behind them. -/
def monsterQuest (qptr : Nat → Option Quest) : Option Quest :=
  let listed := (List.range langCount).findSome? fun i =>
    (qptr i).filter fun q => q.monsterIds.length ≠ 0 ∨ q.monsterTypes.length ≠ 0
  listed <|> qptr langCount

/-- The part of `load_quest_enemies` that copies the monster list. -/
def copyMonsters (mem : Memory) (qptr : Nat → Option Quest) (l : QuestGame) : QuestGame × Int :=
  match monsterQuest qptr with
  | none => ({ l with serverDrops := true }, 0)
  | some q =>
      if q.monsterIds.length = 0 ∧ q.monsterTypes.length = 0 then
        ({ l with serverDrops := true }, 0)
      else if ¬mem.malloc (8 * q.monsterTypes.length) then
        ({ l with numMtypes := 0, mtypes := [] }, -9)
      else if ¬mem.malloc (8 * q.monsterIds.length) then
        ({ l with numMtypes := 0, mtypes := [], numMids := 0, mids := [] }, -10)
      else
        ({ l with
          serverDrops := true
          numMtypes := q.monsterTypes.length
          mtypes := q.monsterTypes
          numMids := q.monsterIds.length
          mids := q.monsterIds }, 0)

/-- `load_quest_enemies`, with the cache file if there is one, and the `qptr` of the quest
if it is found. -/
def loadQuestEnemies (mem : Memory) (file : Option Image) (elem : Option (Nat → Nat → Option Quest))
    (ver : Version) (l : QuestGame) : QuestGame × Int :=
  if ¬l.serverDrops then (l, 0)
  else
    let l := { l with serverDrops := false }
    let ver := if ver = .pc then .dcv2 else ver
    match file with
    | none => (l, -1)
    | some f =>
        let r := readCache mem f l
        if r.2 ≠ 0 then r
        else
          match elem with
          | none => (r.1, -8)
          | some qptr => copyMonsters mem (qptr ver.code) r.1

end Sylverant.Ship.QuestMap
