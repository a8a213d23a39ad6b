/-
# The tables behind a new game

What a ship looks up when a client creates a game: the level that the difficulty requires, how
many variations the maps of the episode have, and the enemies and objects of the variations that
come out. The difficulty, the episode and the modes are bytes of the packet. Each version sends
other ones, and counts the episodes in its own way.

What is read at a place outside of a table is what stands there in memory.
-/

import Sylverant.Ship.Games

namespace Sylverant.Ship.GameTables

/-! ## The tables -/

/-- `maps`, of which there are two that are the same. -/
def mapsTable : List (List Nat) :=
  [[1, 1, 1, 5, 1, 5, 3, 2, 3, 2, 3, 2, 3, 2, 3, 2, 3, 2, 3, 2, 3, 2, 1, 1,
      1, 1, 1, 1, 1, 1, 1, 1],
    [1, 1, 2, 1, 2, 1, 2, 1, 2, 1, 1, 3, 1, 3, 1, 3, 2, 2, 1, 3, 2, 2, 2, 2,
      1, 1, 1, 1, 1, 1, 1, 1],
    [1, 1, 1, 3, 1, 3, 1, 3, 1, 3, 1, 3, 3, 1, 1, 3, 3, 1, 1, 1, 1, 1, 1, 1,
      1, 1, 1, 1, 1, 1, 1, 1]]

/-- `sp_maps` -/
def spMapsTable : List (List Nat) :=
  [[1, 1, 1, 3, 1, 3, 3, 1, 3, 1, 3, 1, 3, 2, 3, 2, 3, 2, 3, 2, 3, 2, 1, 1,
      1, 1, 1, 1, 1, 1, 1, 1],
    [1, 1, 2, 1, 2, 1, 2, 1, 2, 1, 1, 3, 1, 3, 1, 3, 2, 2, 1, 3, 2, 1, 2, 1,
      1, 1, 1, 1, 1, 1, 1, 1],
    [1, 1, 1, 3, 1, 3, 1, 3, 1, 3, 1, 3, 3, 1, 1, 3, 3, 1, 1, 1, 1, 1, 1, 1,
      1, 1, 1, 1, 1, 1, 1, 1]]

/-- `max_area` -/
def maxArea (episode : Nat) : Nat := [0x0E, 0x0F, 0x09].getD episode 0

/-- The maps that were read, by the array that they are in: `bb_parsed_maps`, `v2_parsed_maps` or
`gc_parsed_maps`. Episodes count from 0 here. -/
inductive MapSet
  | bb (solo : Bool) (episode : Int)
  | v2
  | gc (episode : Int)

/-- Something that is looked up in a table. -/
inductive Access
  /-- `game_required_level[difficulty]` -/
  | requiredLevel (difficulty : Nat)
  /-- `maps[episode][i]` or `sp_maps[episode][i]` -/
  | maps (solo : Bool) (episode : Int) (i : Nat)
  /-- `battle_params[solo][episode][difficulty]` -/
  | battleParams (solo : Bool) (episode : Int) (difficulty : Nat)
  /-- The maps and the objects of an area. -/
  | parsed (set : MapSet) (area : Nat)
  /-- A variation, among so many that were read. -/
  | variation (count index : Nat)

/-- An episode of three, or of two. -/
def Among (count : Int) (episode : Int) : Prop := 0 ≤ episode ∧ episode < count

/-- The array of the maps has the episode. -/
def MapSet.Known : MapSet → Prop
  | .bb _ episode => Among 3 episode
  | .v2 => True
  | .gc episode => Among 2 episode

def Access.Inside : Access → Prop
  | .requiredLevel difficulty => difficulty < 4
  | .maps _ episode i => Among 3 episode ∧ i < 0x20
  | .battleParams _ episode difficulty => Among 3 episode ∧ difficulty < 4
  | .parsed set area => set.Known ∧ area < 0x10
  | .variation count index => index < count

instance (count episode : Int) : Decidable (Among count episode) :=
  inferInstanceAs (Decidable (_ ∧ _))

instance : (set : MapSet) → Decidable set.Known
  | .bb _ _ | .gc _ => inferInstanceAs (Decidable (Among _ _))
  | .v2 => inferInstanceAs (Decidable True)

/-! ## Looking up -/

/-- What stands in memory outside of the tables. -/
structure Memory where
  level : Nat → Nat
  maps : Bool → Int → Nat → Nat
  parsed : MapSet → Nat → Nat × Nat

/-- What a ship has, and what happens, while a game is created. -/
structure Env where
  memory : Memory
  /-- Whether there is memory for the lobby, and for its enemies. -/
  alloc : Bool
  allocEnemies : Bool
  haveV2Maps : Bool
  haveGcMaps : Bool
  /-- `next_maps`, which the client may have set. -/
  nextMaps : Option (Nat → Nat)
  /-- The random numbers, by the places that they are for. -/
  rnd : Nat → Nat

section Lookup

variable (m : Memory)

def requiredLevel (difficulty : Nat) : Nat :=
  if difficulty < 4 then gameRequiredLevel difficulty else m.level difficulty

/-- An entry inside of `maps` or `sp_maps`. -/
def mapsEntry (solo : Bool) (episode i : Nat) : Nat :=
  ((if solo then spMapsTable else mapsTable).getD episode []).getD i 0

def mapsAt (solo : Bool) (episode : Int) (i : Nat) : Nat :=
  if Among 3 episode ∧ i < 0x20 then mapsEntry solo episode.toNat i else m.maps solo episode i

/-- `map_count` and `variation_count` of an area whose maps were read. The other areas have
none. -/
def readCounts (solo : Bool) (episode area : Nat) : Nat × Nat :=
  if area ≤ maxArea episode then
    (mapsEntry solo episode (2 * area), mapsEntry solo episode (2 * area + 1))
  else (0, 0)

/-- The table that the maps of an array were read by, and the episode there. -/
def MapSet.table : MapSet → Bool × Nat
  | .bb solo episode => (solo, episode.toNat)
  | .v2 => (false, 0)
  | .gc episode => (false, episode.toNat)

def parsedMap (set : MapSet) (area : Nat) : Nat × Nat :=
  if set.Known ∧ area < 0x10 then readCounts set.table.1 set.table.2 area else m.parsed set area

end Lookup

/-! ## Creating the game -/

section Create

variable (env : Env)

/-- The loops in `lobby_create_game` that choose the maps. -/
def chooseMaps (solo : Bool) (episode : Int) (i : Nat) : Nat :=
  let count := mapsAt env.memory solo episode i
  match env.nextMaps with
  | none => if count ≠ 1 then env.rnd i % count else 0
  | some next => if next i < count then next i else env.rnd i % count

/-- The loop of the functions `*_load_game_enemies` over so many areas, from some area on, and
whether it comes to its end. -/
def loadLoop (set : MapSet) (maps : Nat → Nat) : Nat → Nat → List Access × Bool
  | 0, _ => ([], true)
  | left + 1, area =>
      let counts := parsedMap env.memory set area
      if counts.1 = 0 ∧ counts.2 = 0 then ([.parsed set area], true)
      else if maps (2 * area) > counts.1 ∨ maps (2 * area + 1) > counts.2 then
        ([.parsed set area], false)
      else
        let rest := loadLoop set maps left (area + 1)
        (.parsed set area ::
          .variation (counts.1 * counts.2) (maps (2 * area) * counts.2 + maps (2 * area + 1)) ::
            rest.1, rest.2)

/-- The functions `*_load_game_enemies`: what they look up, and whether they succeed. -/
def loadGameEnemies (set : MapSet) (maps : Nat → Nat) : List Access × Bool :=
  let r := loadLoop env set maps 0x10 0
  (r.1, r.2 && env.allocEnemies)

/-- The choice of a function for the enemies in `lobby_create_game`. -/
def setUpEnemies (a : GameArgs) (maps : Nat → Nat) : List Access × Bool :=
  if a.version = .bb then
    let r := loadGameEnemies env (.bb a.singlePlayer (a.episode - 1)) maps
    (.battleParams a.singlePlayer (a.episode - 1) a.difficulty :: r.1, r.2)
  else if a.version.code ≤ Version.pc.code ∧ env.haveV2Maps ∧ a.battle = 0 ∧ a.chal = 0 then
    loadGameEnemies env .v2 maps
  else if a.version = .gc ∧ env.haveGcMaps ∧ a.battle = 0 ∧ a.chal = 0 then
    loadGameEnemies env (.gc (a.episode - 1)) maps
  else ([], true)

/-- The episode in `lobby_create_game`, counted from 0: before the GameCube there is but one. -/
def mapEpisode (a : GameArgs) : Int :=
  (if a.version.code < Version.gc.code then 1 else a.episode) - 1

/-- `lobby_create_game`: what it looks up, and whether there is a game. -/
def lobbyCreateGame (a : GameArgs) : List Access × Bool :=
  if env.alloc then
    let r := setUpEnemies env a (chooseMaps env a.singlePlayer (mapEpisode a))
    (.requiredLevel a.difficulty ::
      (List.range 0x20).map (.maps a.singlePlayer (mapEpisode a)) ++ r.1, r.2)
  else ([], false)

/-- The game that comes of the arguments. -/
def createGame (a : GameArgs) : List Access × Option GameArgs :=
  let r := lobbyCreateGame env a
  (r.1, if r.2 then some a else none)

/-- Check that the client has the level for the difficulty, and create the game. -/
def checkAndCreate (y : Client) (a : GameArgs) : List Access × Option GameArgs :=
  if y.flags.overrideGame then createGame env a
  else if (y.level + 1) % 2 ^ 32 < requiredLevel env.memory a.difficulty then
    ([.requiredLevel a.difficulty], none)
  else
    let r := createGame env a
    (.requiredLevel a.difficulty :: r.1, r.2)

/-- `dcnte_process_game_create` -/
def dcnteProcessGameCreate (y : Client) (pkt : GameCreatePkt) : List Access × Option GameArgs :=
  createGame env (dcnteGame y pkt)

/-- `dc_process_game_create` -/
def dcProcessGameCreate (y : Client) (pkt : GameCreatePkt) : List Access × Option GameArgs :=
  checkAndCreate env y (dcGame y pkt)

/-- `pc_process_game_create` -/
def pcProcessGameCreate (y : Client) (pkt : GameCreatePkt) : List Access × Option GameArgs :=
  checkAndCreate env y (pcGame y pkt)

/-- `gc_process_game_create` -/
def gcProcessGameCreate (y : Client) (pkt : GameCreatePkt) : List Access × Option GameArgs :=
  checkAndCreate env y (gcGame y pkt)

/-- `bb_process_game_create` -/
def bbProcessGameCreate (y : Client) (pkt : GameCreatePkt) : List Access × Option GameArgs :=
  if pkt.battle ≠ 0 ∨ pkt.challenge ≠ 0 then ([], none) else checkAndCreate env y (bbGame y pkt)

/-- The packets that create a game. One for Episode III is created from no table, and its drops
are left to the clients. -/
inductive CreatePkt
  | game (pkt : GameCreatePkt)
  | ep3

/-- The handler for a packet that creates a game. -/
def processGameCreate (y : Client) : CreatePkt → List Access × Option GameArgs
  | .ep3 => ([], none)
  | .game pkt =>
      if y.version = .bb then bbProcessGameCreate env y pkt
      else if y.flags.isDcnte then dcnteProcessGameCreate env y pkt
      else if y.version ≠ .pc ∧ y.version ≠ .gc then dcProcessGameCreate env y pkt
      else if y.version = .pc then pcProcessGameCreate env y pkt
      else gcProcessGameCreate env y pkt

end Create

/-! ## The maps of a game are among those that were read -/

theorem mapsEntry_pos (solo : Bool) {episode i : Nat} (known : episode < 3) (inside : i < 0x20) :
    0 < mapsEntry solo episode i := by
  have all : ∀ solo, ∀ episode < 3, ∀ i < 0x20, 0 < mapsEntry solo episode i := by decide +kernel
  exact all solo episode known i inside

section Inside

variable {env : Env}

theorem mapsAt_of_among (m : Memory) (solo : Bool) {episode : Int} {i : Nat}
    (known : Among 3 episode) (inside : i < 0x20) :
    mapsAt m solo episode i = mapsEntry solo episode.toNat i :=
  if_pos ⟨known, inside⟩

/-- Each map that is chosen is one of those that the table counts. -/
theorem chooseMaps_lt (solo : Bool) {episode : Int} {i : Nat} (known : Among 3 episode)
    (inside : i < 0x20) : chooseMaps env solo episode i < mapsEntry solo episode.toNat i := by
  have small : episode.toNat < 3 := by
    obtain ⟨low, high⟩ := known
    omega
  have pos := mapsEntry_pos solo small inside
  rw [chooseMaps, mapsAt_of_among env.memory solo known inside]
  split
  · split
    · exact Nat.mod_lt _ pos
    · exact pos
  · split
    · rename_i next
      exact next
    · exact Nat.mod_lt _ pos

/-- A variation of a map is behind all variations of the maps before it. -/
theorem variation_lt {x y count variations : Nat} (map : x < count) (variation : y < variations) :
    x * variations + y < count * variations :=
  calc x * variations + y < x * variations + variations := Nat.add_lt_add_left variation _
    _ = (x + 1) * variations := (Nat.succ_mul x variations).symm
    _ ≤ count * variations := Nat.mul_le_mul_right variations map

theorem loadLoop_inside {set : MapSet} {maps : Nat → Nat} (known : set.Known)
    (chosen : ∀ i < 0x20, maps i < mapsEntry set.table.1 set.table.2 i) {left area : Nat}
    (areas : area + left ≤ 0x10) : ∀ a ∈ (loadLoop env set maps left area).1, a.Inside := by
  induction left generalizing area with
  | zero =>
      intro a mem
      cases mem
  | succ left ih =>
      have here : (Access.parsed set area).Inside := ⟨known, by omega⟩
      have counts : parsedMap env.memory set area = readCounts set.table.1 set.table.2 area :=
        if_pos here
      intro a mem
      rw [loadLoop, counts] at mem
      dsimp only at mem
      split at mem
      · rw [List.mem_singleton.mp mem]
        exact here
      · rename_i some_maps
        split at mem
        · rw [List.mem_singleton.mp mem]
          exact here
        · rcases List.mem_cons.mp mem with rfl | mem
          · exact here
          · rcases List.mem_cons.mp mem with rfl | mem
            · by_cases read : area ≤ maxArea set.table.2
              · rw [readCounts, if_pos read]
                exact variation_lt (chosen _ (by omega)) (chosen _ (by omega))
              · rw [readCounts, if_neg read] at some_maps
                exact absurd ⟨rfl, rfl⟩ some_maps
            · exact ih (by omega) a mem

/-- The first area is looked up. -/
theorem first_mem_loadLoop (set : MapSet) (maps : Nat → Nat) (left area : Nat) :
    Access.parsed set area ∈ (loadLoop env set maps (left + 1) area).1 := by
  rw [loadLoop]
  dsimp only
  split
  · exact List.mem_singleton.mpr rfl
  · split
    · exact List.mem_singleton.mpr rfl
    · exact List.mem_cons_self

theorem loadGameEnemies_inside_iff {set : MapSet} {maps : Nat → Nat}
    (chosen : set.Known → ∀ i < 0x20, maps i < mapsEntry set.table.1 set.table.2 i) :
    (∀ a ∈ (loadGameEnemies env set maps).1, a.Inside) ↔ set.Known := by
  constructor
  · intro inside
    exact (inside _ (first_mem_loadLoop set maps 0xF 0)).1
  · exact fun known => loadLoop_inside known (chosen known) (Nat.le_refl 0x10)

/-! ## What the tables have -/

/-- The episodes whose enemies are set up for a game for the GameCube. -/
def gcEpisodes (env : Env) (a : GameArgs) : Nat :=
  if env.haveGcMaps ∧ a.battle = 0 ∧ a.chal = 0 then 2 else 3

/-- The difficulty and the episode of a game are such as the tables have. -/
def Known (env : Env) (a : GameArgs) : Prop :=
  a.difficulty < 4 ∧
    match a.version with
    | .dcv1 | .dcv2 | .pc => True
    | .gc => 1 ≤ a.episode ∧ a.episode ≤ gcEpisodes env a
    | .ep3 | .bb => 1 ≤ a.episode ∧ a.episode ≤ 3

theorem lobbyCreateGame_inside_iff {a : GameArgs} (alloc : env.alloc = true) :
    (∀ b ∈ (lobbyCreateGame env a).1, b.Inside) ↔
      a.difficulty < 4 ∧ Among 3 (mapEpisode a) ∧
        ∀ b ∈ (setUpEnemies env a (chooseMaps env a.singlePlayer (mapEpisode a))).1, b.Inside := by
  rw [lobbyCreateGame, if_pos alloc]
  constructor
  · intro inside
    refine ⟨inside _ (List.mem_append_left _ List.mem_cons_self), ?_, fun b mem => ?_⟩
    · have first : Access.maps a.singlePlayer (mapEpisode a) 0 ∈
          (List.range 0x20).map (Access.maps a.singlePlayer (mapEpisode a)) :=
        List.mem_map_of_mem (List.mem_range.mpr (by decide))
      exact (inside _ (List.mem_append_left _ (List.mem_cons_of_mem _ first))).1
    · exact inside b (List.mem_append_right _ mem)
  · rintro ⟨difficulty, among, enemies⟩ b mem
    rcases List.mem_append.mp mem with mem | mem
    · rcases List.mem_cons.mp mem with rfl | mem
      · exact difficulty
      · obtain ⟨i, inside, rfl⟩ := List.mem_map.mp mem
        exact ⟨among, List.mem_range.mp inside⟩
    · exact enemies b mem

/-- The enemies are looked up inside of the tables if and only if there are maps of the episode. -/
theorem setUpEnemies_inside_iff {a : GameArgs} (solo : a.version ≠ .bb → a.singlePlayer = false)
    (difficulty : a.difficulty < 4) (among : Among 3 (mapEpisode a)) :
    (∀ b ∈ (setUpEnemies env a (chooseMaps env a.singlePlayer (mapEpisode a))).1, b.Inside) ↔
      (a.version = .gc → a.episode ≤ gcEpisodes env a) := by
  have chosen : ∀ i < 0x20, chooseMaps env a.singlePlayer (mapEpisode a) i <
      mapsEntry a.singlePlayer (mapEpisode a).toNat i :=
    fun i inside => chooseMaps_lt a.singlePlayer among inside
  have nothing : ∀ {p : Prop}, p → ((∀ b ∈ ([] : List Access), b.Inside) ↔ p) :=
    fun h => ⟨fun _ => h, fun _ b mem => absurd mem List.not_mem_nil⟩
  cases version : a.version with
  | dcv1 | dcv2 | pc =>
      have early : a.version.code < Version.gc.code := by
        rw [version]
        decide
      rw [version] at solo
      rw [mapEpisode, if_pos early, solo (by decide)] at chosen
      rw [setUpEnemies, if_neg (by rw [version]; decide), version]
      split
      · rw [mapEpisode, if_pos early, solo (by decide),
          loadGameEnemies_inside_iff (fun _ => chosen)]
        exact ⟨fun _ h => (by cases h), fun _ => trivial⟩
      · rw [if_neg (by rintro ⟨h, -⟩; cases h)]
        exact nothing fun h => by cases h
  | gc =>
      have late : mapEpisode a = a.episode - 1 := by
        rw [mapEpisode, if_neg (by rw [version]; decide)]
      rw [version] at solo
      rw [solo (by decide), late] at chosen
      rw [setUpEnemies, if_neg (by rw [version]; decide),
        if_neg (by rw [version]; rintro ⟨h, -⟩; exact absurd h (by decide)), gcEpisodes]
      by_cases normal : env.haveGcMaps ∧ a.battle = 0 ∧ a.chal = 0
      · rw [if_pos ⟨version, normal⟩, if_pos normal, solo (by decide), late,
          loadGameEnemies_inside_iff fun _ => chosen]
        have low := late ▸ among.1
        constructor
        · rintro ⟨-, high⟩ -
          omega
        · intro high
          exact ⟨low, by have := high rfl; omega⟩
      · rw [if_neg fun h => normal h.2, if_neg normal]
        have high := late ▸ among.2
        exact nothing fun _ => by omega
  | ep3 =>
      rw [setUpEnemies, if_neg (by rw [version]; decide),
        if_neg (by rw [version]; rintro ⟨h, -⟩; exact absurd h (by decide)),
        if_neg (by rw [version]; rintro ⟨h, -⟩; cases h)]
      exact nothing fun h => by cases h
  | bb =>
      have late : mapEpisode a = a.episode - 1 := by
        rw [mapEpisode, if_neg (by rw [version]; decide)]
      rw [late] at chosen among
      rw [setUpEnemies, if_pos version, late]
      refine ⟨fun _ h => (by cases h), fun _ b mem => ?_⟩
      rcases List.mem_cons.mp mem with rfl | mem
      · exact ⟨among, difficulty⟩
      · have known : (MapSet.bb a.singlePlayer (a.episode - 1)).Known := among
        exact (loadGameEnemies_inside_iff fun _ => chosen).mpr known b mem

/-- What is looked up for a game is there if and only if the tables have its difficulty and its
episode, or there is no memory for it. -/
theorem createGame_inside_iff {a : GameArgs} (solo : a.version ≠ .bb → a.singlePlayer = false) :
    (∀ b ∈ (createGame env a).1, b.Inside) ↔ (env.alloc = true → Known env a) := by
  cases alloc : env.alloc with
  | false =>
      refine ⟨fun _ h => (by cases h), fun _ b mem => ?_⟩
      rw [createGame, lobbyCreateGame, if_neg (by rw [alloc]; decide)] at mem
      cases mem
  | true =>
  have among : Among 3 (mapEpisode a) ↔
      (a.version.code < Version.gc.code ∨ 1 ≤ a.episode ∧ a.episode ≤ 3) := by
    rw [mapEpisode, Among]
    split
    · rename_i early
      exact ⟨fun _ => Or.inl early, fun _ => by omega⟩
    · rename_i late
      constructor
      · exact fun _ => Or.inr (by omega)
      · rintro (early | episode)
        · exact absurd early late
        · omega
  suffices whole : (∀ b ∈ (createGame env a).1, b.Inside) ↔ Known env a from
    ⟨fun inside _ => whole.mp inside, fun known => whole.mpr (known rfl)⟩
  rw [createGame, lobbyCreateGame_inside_iff alloc]
  apply and_congr_right
  intro difficulty
  constructor
  · rintro ⟨known, enemies⟩
    have gc := (setUpEnemies_inside_iff solo difficulty known).mp enemies
    rw [among] at known
    cases version : a.version with
    | dcv1 | dcv2 | pc => trivial
    | gc =>
        rw [version] at known
        exact ⟨(known.resolve_left (by decide)).1, gc version⟩
    | ep3 | bb =>
        rw [version] at known
        exact known.resolve_left (by decide)
  · intro known
    have here : Among 3 (mapEpisode a) := by
      rw [among]
      cases version : a.version with
      | dcv1 | dcv2 | pc => exact Or.inl (by decide)
      | gc =>
          rw [version] at known
          have most : gcEpisodes env a ≤ 3 := by
            rw [gcEpisodes]
            split <;> decide
          exact Or.inr ⟨known.1, Nat.le_trans known.2 most⟩
      | ep3 | bb =>
          rw [version] at known
          exact Or.inr known
    refine ⟨here, (setUpEnemies_inside_iff solo difficulty here).mpr fun version => ?_⟩
    rw [version] at known
    exact known.2

/-! ## The packets -/

/-- Where the level is checked, the difficulty is one of the four; and if the client is not
refused, the tables have what is looked up for the game. -/
def CheckedFits (env : Env) (y : Client) (a : GameArgs) : Prop :=
  (y.flags.overrideGame = false → a.difficulty < 4) ∧
    (¬y.tooLow a.difficulty → env.alloc = true → Known env a)

theorem checkAndCreate_inside_iff {y : Client} {a : GameArgs}
    (solo : a.version ≠ .bb → a.singlePlayer = false) :
    (∀ b ∈ (checkAndCreate env y a).1, b.Inside) ↔ CheckedFits env y a := by
  have create := @createGame_inside_iff env a solo
  rw [checkAndCreate, CheckedFits, Client.tooLow]
  cases override : y.flags.overrideGame with
  | true =>
      rw [if_pos rfl, create]
      constructor
      · exact fun known => ⟨fun h => (by cases h), fun _ => known⟩
      · exact fun fits => fits.2 fun h => h.1 rfl
  | false =>
      rw [if_neg Bool.false_ne_true]
      by_cases difficulty : a.difficulty < 4
      · rw [requiredLevel, if_pos difficulty]
        split
        · rename_i low
          refine ⟨fun _ => ⟨fun _ => difficulty, fun h => absurd ⟨by decide, low⟩ h⟩,
            fun _ b mem => ?_⟩
          rw [List.mem_singleton.mp mem]
          exact difficulty
        · rename_i enough
          rw [List.forall_mem_cons, create]
          constructor
          · exact fun h => ⟨fun _ => difficulty, fun _ => h.2⟩
          · exact fun h => ⟨difficulty, h.2 fun low => enough low.2⟩
      · have outside : ¬(Access.requiredLevel a.difficulty).Inside := difficulty
        refine ⟨fun inside => absurd (inside _ ?_) outside,
          fun fits => absurd (fits.1 rfl) difficulty⟩
        split <;> exact List.mem_cons_self

/-- The condition on a packet that creates a game, by the version of the client. -/
def CreatePkt.Fits (env : Env) (y : Client) : CreatePkt → Prop
  | .ep3 => True
  | .game pkt =>
      if y.version = .bb then
        pkt.battle = 0 ∧ pkt.challenge = 0 → CheckedFits env y (bbGame y pkt)
      else if y.flags.isDcnte then env.alloc = true → Known env (dcnteGame y pkt)
      else
        CheckedFits env y
          (if y.version = .gc then gcGame y pkt
          else if y.version = .pc then pcGame y pkt
          else dcGame y pkt)

/-- What the handler of a packet looks up is there if and only if the packet fits. -/
theorem processGameCreate_inside_iff {y : Client} {pkt : CreatePkt} :
    (∀ b ∈ (processGameCreate env y pkt).1, b.Inside) ↔ pkt.Fits env y := by
  cases pkt with
  | ep3 => exact ⟨fun _ => trivial, fun _ b mem => absurd mem List.not_mem_nil⟩
  | game pkt =>
      rw [processGameCreate, CreatePkt.Fits]
      by_cases blue : y.version = .bb
      · rw [if_pos blue, if_pos blue, bbProcessGameCreate]
        by_cases mode : pkt.battle = 0 ∧ pkt.challenge = 0
        · rw [if_neg (by omega), checkAndCreate_inside_iff fun h => absurd blue h]
          exact ⟨fun fits _ => fits, fun fits => fits mode⟩
        · rw [if_pos (by omega)]
          exact ⟨fun _ h => absurd h mode, fun _ b mem => absurd mem List.not_mem_nil⟩
      · rw [if_neg blue, if_neg blue]
        split
        · exact @createGame_inside_iff env (dcnteGame y pkt) fun _ => rfl
        · by_cases cube : y.version = .gc
          · rw [if_pos cube, if_neg (fun h => h.2 cube), if_neg (by rw [cube]; decide)]
            exact @checkAndCreate_inside_iff env y (gcGame y pkt) fun _ => rfl
          · rw [if_neg cube]
            by_cases pc : y.version = .pc
            · rw [if_pos pc, if_neg (fun h => h.1 pc), if_pos pc]
              exact @checkAndCreate_inside_iff env y (pcGame y pkt) fun _ => rfl
            · rw [if_pos ⟨pc, cube⟩, if_neg pc]
              exact @checkAndCreate_inside_iff env y (dcGame y pkt) fun _ => rfl

/-! ## The game that comes of a packet -/

theorem createGame_some {a b : GameArgs} (created : (createGame env a).2 = some b) :
    b = a ∧ env.alloc = true := by
  rw [createGame, lobbyCreateGame] at created
  cases alloc : env.alloc with
  | false =>
      rw [alloc] at created
      cases created
  | true =>
      rw [alloc, if_pos rfl] at created
      dsimp only at created
      split at created
      · exact ⟨(Option.some.inj created).symm, rfl⟩
      · cases created

theorem checkAndCreate_some {y : Client} {a b : GameArgs}
    (created : (checkAndCreate env y a).2 = some b)
    (inside : ∀ x ∈ (checkAndCreate env y a).1, x.Inside) :
    (createGame env a).2 = some b ∧ ∀ x ∈ (createGame env a).1, x.Inside := by
  rw [checkAndCreate] at created inside
  split at created
  · rename_i override
    rw [if_pos override] at inside
    exact ⟨created, inside⟩
  · rename_i checked
    rw [if_neg checked] at inside
    split at created
    · cases created
    · rename_i enough
      rw [if_neg enough] at inside
      exact ⟨created, (List.forall_mem_cons.mp inside).2⟩

/-- The tables have the difficulty and the episode of a game that was created without leaving
them. -/
theorem processGameCreate_some {y : Client} {pkt : CreatePkt} {a : GameArgs}
    (created : (processGameCreate env y pkt).2 = some a)
    (inside : ∀ x ∈ (processGameCreate env y pkt).1, x.Inside) :
    Known env a ∧ a.version = y.version := by
  have known : ∀ {b : GameArgs}, (b.version ≠ .bb → b.singlePlayer = false) →
      b.version = y.version → (createGame env b).2 = some a →
      (∀ x ∈ (createGame env b).1, x.Inside) → Known env a ∧ a.version = y.version := by
    intro b solo version created inside
    obtain ⟨rfl, alloc⟩ := createGame_some created
    exact ⟨(createGame_inside_iff solo).mp inside alloc, version⟩
  have checked : ∀ {b : GameArgs}, (b.version ≠ .bb → b.singlePlayer = false) →
      b.version = y.version → (checkAndCreate env y b).2 = some a →
      (∀ x ∈ (checkAndCreate env y b).1, x.Inside) → Known env a ∧ a.version = y.version := by
    intro b solo version created inside
    obtain ⟨created, inside⟩ := checkAndCreate_some created inside
    exact known solo version created inside
  cases pkt with
  | ep3 => cases created
  | game pkt =>
      rw [processGameCreate] at created inside
      split at created
      · rename_i blue
        rw [if_pos blue, bbProcessGameCreate] at inside
        rw [bbProcessGameCreate] at created
        split at created
        · cases created
        · rename_i mode
          rw [if_neg mode] at inside
          exact @checked (bbGame y pkt) (fun h => absurd blue h) rfl created inside
      · rename_i other
        rw [if_neg other] at inside
        split at created
        · rename_i trial
          rw [if_pos trial] at inside
          exact @known (dcnteGame y pkt) (fun _ => rfl) rfl created inside
        · rename_i full
          rw [if_neg full] at inside
          split at created
          · rename_i dc
            rw [if_pos dc] at inside
            exact @checked (dcGame y pkt) (fun _ => rfl) rfl created inside
          · rename_i late
            rw [if_neg late] at inside
            split at created
            · rename_i pc
              rw [if_pos pc] at inside
              exact @checked (pcGame y pkt) (fun _ => rfl) rfl created inside
            · rename_i cube
              rw [if_neg cube] at inside
              exact @checked (gcGame y pkt) (fun _ => rfl) rfl created inside

end Inside

end Sylverant.Ship.GameTables
