import BankTrace.Proofs.MemoryMap.Cache

/-!
# Tables of banks

A memory map can be spread out to a table that names the bank of every address: each mapped bank
fills the stretch of its addresses. An address is then resolved by one look into the table, and the
mapped banks are found by going through it from the first address to the last. As no two mapped
banks share an address, the table says the same as the list of banks, and the banks come in
ascending order. The tables are kept by selection, and whatever was asked before, what they answer
is decided by the fixed banks and the selected ones alone.
-/

namespace BankTrace

/-- A snapshot maps a bank: the bank is fixed or selected. -/
def BankSet.Maps (set : BankSet) (s : Snapshot) (b : LoadedBank) : Prop :=
  b ∈ set.banks ∧ (b.fixed = true ∨ s.Selects b.name)

/-- The bank of every address, where there is one. -/
structure BankTable where
  /-- The banks in ascending order of the addresses. -/
  entries : Vector (Option LoadedBank) 0x10000

namespace BankTable

/-- The table without any bank. -/
def empty : BankTable := ⟨Vector.replicate 0x10000 none⟩

/-- Give a bank the stretch of its addresses. -/
def fill (table : BankTable) (b : LoadedBank) : BankTable :=
  ⟨table.entries.mapIdx fun addr old => if b.contains (addr : Nat) then some b else old⟩

/-- The table of the banks that a map maps together. -/
def ofMap (map : MemoryMap) : BankTable := map.active.foldl fill empty

/-- The bank and the offset in it that an address lies at; an address past either end of the address
space wraps. -/
def resolve (table : BankTable) (addr : Int) : Option (LoadedBank × Int) :=
  let seen := wrapAddress addr
  have inside : seen.toNat < 0x10000 := by
    have bounds := wrapAddress_bounds addr
    omega
  table.entries[seen.toNat].map fun b => (b, seen - b.start)

/-- Note the bank of an address, unless one of its name has been seen. -/
def note (seen : List LoadedBank) : Option LoadedBank → List LoadedBank
  | none => seen
  | some b => if seen.any fun c => c.name = b.name then seen else seen ++ [b]

/-- The banks of the table in the order in which they begin. -/
def banks (table : BankTable) : List LoadedBank := table.entries.toList.foldl note []

section

variable {b c : LoadedBank} {addr : Nat}

/-- A bank has exactly the addresses that it fills. -/
theorem getElem_fill (table : BankTable) (b : LoadedBank) (inside : addr < 0x10000) :
    (table.fill b).entries[addr] =
      if b.contains addr then some b else table.entries[addr] := by
  unfold fill
  rw [Vector.getElem_mapIdx]

/-- Two banks that share no address do not both contain one. -/
theorem not_contains_of_apart (apart : b.overlaps c.toBank = false)
    (here : b.contains addr = true) : c.contains addr = false := by
  rw [← Bool.not_eq_true] at apart ⊢
  intro there
  exact apart (Bank.overlaps_iff_exists.mpr ⟨addr, here, there⟩)

/-- Where banks that share no address fill a table, each of them has its addresses, and the other
addresses keep what they had. -/
theorem getElem_foldl_fill {active : List LoadedBank}
    (disjoint : active.Pairwise fun a b => a.overlaps b.toBank = false) (table : BankTable)
    (inside : addr < 0x10000) :
    (active.foldl fill table).entries[addr] = some b ↔
      b ∈ active ∧ b.contains addr = true ∨
        (∀ c ∈ active, c.contains addr = false) ∧ table.entries[addr] = some b := by
  induction active generalizing table with
  | nil => simp
  | cons a rest ih =>
    obtain ⟨apart, others⟩ := List.pairwise_cons.mp disjoint
    rw [List.foldl_cons, ih others, getElem_fill table a inside]
    simp only [List.mem_cons, forall_eq_or_imp, or_and_right]
    cases here : a.contains addr with
    | true =>
      have elsewhere : ∀ c ∈ rest, c.contains addr = false :=
        fun c member => not_contains_of_apart (apart c member) here
      simp only [if_true, Option.some.injEq, Bool.true_eq_false, false_and, or_false]
      constructor
      · rintro (later | ⟨_, rfl⟩)
        · exact .inr later
        · exact .inl ⟨rfl, here⟩
      · rintro (⟨rfl, _⟩ | later)
        · exact .inr ⟨elsewhere, rfl⟩
        · exact .inl later
    | false =>
      simp only [Bool.false_eq_true, if_false, true_and]
      constructor
      · rintro (later | kept)
        · exact .inl (.inr later)
        · exact .inr kept
      · rintro ((⟨rfl, there⟩ | later) | kept)
        · rw [here] at there
          contradiction
        · exact .inl later
        · exact .inr kept

/-- The table names the mapped bank that contains an address. -/
theorem getElem_ofMap (map : MemoryMap) (inside : addr < 0x10000) :
    (ofMap map).entries[addr] = some b ↔ b ∈ map.active ∧ b.contains addr = true := by
  unfold ofMap
  rw [getElem_foldl_fill map.disjoint]
  unfold empty
  simp

/-- A look into the table finds what the map resolves to. -/
theorem resolve_ofMap (map : MemoryMap) (addr : Int) :
    (ofMap map).resolve addr = (map.resolve addr).map fun l => (l.bank, (l.offset : Int)) := by
  have bounds := wrapAddress_bounds addr
  have inside : (wrapAddress addr).toNat < 0x10000 := by omega
  apply Option.ext
  rintro ⟨b, offset⟩
  unfold resolve
  simp only [Option.map_eq_some_iff, Prod.mk.injEq, getElem_ofMap, MemoryMap.resolve_eq_some_iff,
    Bank.contains_iff]
  constructor
  · rintro ⟨c, ⟨member, start, stop⟩, rfl, rfl⟩
    have small : (wrapAddress addr).toNat - c.start < c.size := by
      unfold Bank.endAddress at stop
      omega
    refine ⟨⟨c, ⟨_, small⟩⟩, ⟨member, ?_⟩, rfl, ?_⟩
    · unfold Location.address
      dsimp only
      omega
    · dsimp only
      omega
  · rintro ⟨l, ⟨member, address⟩, rfl, rfl⟩
    have below := l.offset.isLt
    unfold Location.address at address
    unfold Bank.endAddress
    refine ⟨l.bank, ⟨member, ?_, ?_⟩, rfl, ?_⟩
    · omega
    · omega
    · omega

end

/-! ## Going through the table -/

/-- What has been seen of the banks of a map below an address. -/
structure Seen (map : MemoryMap) (stop : Nat) (seen : List LoadedBank) : Prop where
  /-- The mapped banks that begin below the address have been seen. -/
  mem_iff : ∀ b, b ∈ seen ↔ b ∈ map.active ∧ b.start < stop
  /-- They come in ascending order, each behind the end of the one in front of it. -/
  ascending : seen.Pairwise fun a b => a.endAddress ≤ b.start

section

variable {map : MemoryMap}

/-- At first nothing has been seen. -/
theorem seen_start (map : MemoryMap) : Seen map 0 [] where
  mem_iff b := by simp
  ascending := .nil

/-- Mapped banks that begin at the same address are the same. -/
theorem eq_of_start_eq {b c : LoadedBank} (member : b ∈ map.active) (member' : c ∈ map.active)
    (starts : b.start = c.start) : b = c :=
  MemoryMap.bank_eq_of_address_eq (l := ⟨b, ⟨0, b.size_pos⟩⟩) (m := ⟨c, ⟨0, c.size_pos⟩⟩) member
    member' starts

/-- Of two mapped banks the one that begins first ends where the other one begins, or before. -/
theorem end_le_of_start_lt {b c : LoadedBank} (member : b ∈ map.active) (member' : c ∈ map.active)
    (first : b.start < c.start) : b.endAddress ≤ c.start := by
  have symmetric : Std.Symm fun a b : LoadedBank => a.overlaps b.toBank = false :=
    ⟨fun a b apart => by rw [Bank.overlaps_comm]; exact apart⟩
  have other : b ≠ c := by
    rintro rfl
    exact Nat.lt_irrefl _ first
  have apart := map.disjoint.forall member member' other
  have nonempty := c.size_pos
  rw [← Bool.not_eq_true, Bank.overlaps_iff] at apart
  unfold Bank.endAddress at apart ⊢
  omega

/-- Where no bank begins, one more address is seen without another bank. -/
theorem Seen.pass {stop : Nat} {seen : List LoadedBank} (before : Seen map stop seen)
    (inside : ∀ b ∈ map.active, b.start ≠ stop) : Seen map (stop + 1) seen where
  mem_iff b := by
    rw [before.mem_iff]
    refine and_congr_right fun member => ?_
    have later := inside b member
    omega
  ascending := before.ascending

/-- Where a bank begins, it is the last one that has been seen. -/
theorem Seen.push {stop : Nat} {seen : List LoadedBank} {b : LoadedBank}
    (before : Seen map stop seen) (member : b ∈ map.active) (begins : b.start = stop) :
    Seen map (stop + 1) (seen ++ [b]) where
  mem_iff c := by
    rw [List.mem_append, List.mem_singleton, before.mem_iff]
    constructor
    · rintro (⟨member', earlier⟩ | rfl)
      · exact ⟨member', by omega⟩
      · exact ⟨member, by omega⟩
    · rintro ⟨member', earlier⟩
      by_cases here : c.start = stop
      · exact .inr (eq_of_start_eq member' member (here.trans begins.symm))
      · exact .inl ⟨member', by omega⟩
  ascending := by
    refine List.pairwise_append.mpr ⟨before.ascending, List.pairwise_singleton _ _, ?_⟩
    intro c known d last
    obtain rfl := List.mem_singleton.mp last
    obtain ⟨member', earlier⟩ := (before.mem_iff c).mp known
    exact end_le_of_start_lt member' member (by omega)

/-- A bank that has been seen is not noted again. -/
theorem note_of_mem {seen : List LoadedBank} {b : LoadedBank} (known : b ∈ seen) :
    note seen (some b) = seen :=
  if_pos (List.any_eq_true.mpr ⟨b, known, decide_eq_true rfl⟩)

/-- A bank of a new name is noted behind the others. -/
theorem note_of_fresh {seen : List LoadedBank} {b : LoadedBank}
    (fresh : ∀ c ∈ seen, c.name ≠ b.name) : note seen (some b) = seen ++ [b] := by
  refine if_neg fun again => ?_
  obtain ⟨c, known, same⟩ := List.any_eq_true.mp again
  exact fresh c known (of_decide_eq_true same)

/-- Where banks of different names are mapped, one more address is seen with one more entry of the
table. -/
theorem Seen.note {stop : Nat} {seen : List LoadedBank} (before : Seen map stop seen)
    (named : (map.active.map fun b => b.name).Nodup) (inside : stop < 0x10000) :
    Seen map (stop + 1) (note seen (ofMap map).entries[stop]) := by
  have starts : ∀ b ∈ map.active, b.start = stop → (ofMap map).entries[stop] = some b := by
    intro b member here
    have nonempty := b.size_pos
    refine (getElem_ofMap map inside).mpr ⟨member, Bank.contains_iff.mpr ?_⟩
    unfold Bank.endAddress
    omega
  cases found : (ofMap map).entries[stop] with
  | none =>
    refine before.pass fun b member here => ?_
    rw [starts b member here] at found
    contradiction
  | some b =>
    obtain ⟨member, contained⟩ := (getElem_ofMap map inside).mp found
    have begun := (Bank.contains_iff.mp contained).1
    by_cases known : b ∈ seen
    · rw [note_of_mem known]
      refine before.pass fun c member' here => ?_
      obtain rfl := Option.some.inj ((starts c member' here).symm.trans found)
      have earlier := ((before.mem_iff c).mp known).2
      omega
    · have fresh : ∀ c ∈ seen, c.name ≠ b.name := by
        intro c known' same
        have member' := ((before.mem_iff c).mp known').1
        obtain rfl := List.inj_on_of_nodup_map named member' member same
        exact known known'
      have unseen : ¬b.start < stop := fun earlier =>
        known ((before.mem_iff b).mpr ⟨member, earlier⟩)
      rw [note_of_fresh fresh]
      exact before.push member (by omega)

/-- Going through the front of the table shows the banks that begin there. -/
theorem seen_take (named : (map.active.map fun b => b.name).Nodup) {stop : Nat}
    (inside : stop ≤ 0x10000) :
    Seen map stop (((ofMap map).entries.toList.take stop).foldl note []) := by
  induction stop with
  | zero => exact seen_start map
  | succ stop ih =>
    have before := ih (by omega)
    have reached : stop < (ofMap map).entries.toList.length := by
      rw [Vector.length_toList]
      omega
    rw [List.take_succ_eq_append_getElem reached, List.foldl_append]
    exact before.note named (by omega)

/-- The mapped banks in ascending order are the mapped banks. -/
theorem mem_activeBanks {b : LoadedBank} : b ∈ map.activeBanks ↔ b ∈ map.active :=
  (List.mergeSort_perm ..).mem_iff

/-- Where banks of different names are mapped, going through the table lists them in ascending
order. -/
theorem banks_ofMap (named : (map.active.map fun b => b.name).Nodup) :
    (ofMap map).banks = map.activeBanks := by
  have all : Seen map 0x10000 (ofMap map).banks := by
    have taken := seen_take named (Nat.le_refl 0x10000)
    rwa [List.take_of_length_le (Nat.le_of_eq Vector.length_toList)] at taken
  have distinct : ∀ {banks : List LoadedBank},
      (banks.Pairwise fun a b => a.endAddress ≤ b.start) → banks.Nodup := by
    intro banks ascending
    refine ascending.imp fun {a b} order => ?_
    rintro rfl
    have nonempty := a.size_pos
    unfold Bank.endAddress at order
    omega
  have same : (ofMap map).banks.Perm map.activeBanks := by
    rw [List.perm_ext_iff_of_nodup (distinct all.ascending) (distinct map.pairwise_activeBanks)]
    intro b
    have below := b.endAddress_le
    have nonempty := b.size_pos
    unfold Bank.endAddress at below
    rw [all.mem_iff, mem_activeBanks]
    exact and_iff_left_of_imp fun _ => by omega
  refine same.eq_of_pairwise ?_ all.ascending map.pairwise_activeBanks
  intro b c _ _ first second
  have nonempty := b.size_pos
  have nonempty' := c.size_pos
  unfold Bank.endAddress at first second
  omega

end

end BankTable

/-! ## Which banks answer -/

section

variable {set : BankSet} {s t : Snapshot} {map other : MemoryMap}

/-- Under an admitted snapshot the fixed and the selected banks are mapped. -/
theorem MemoryMap.mem_active_iff_maps (valid : ofSnapshot set s = .ok map) {b : LoadedBank} :
    b ∈ map.active ↔ set.Maps s b := by
  obtain ⟨chosen, done, active⟩ := exists_selected valid
  obtain ⟨_, rfl⟩ := selected_eq_ok_iff.mp done
  have chosen : b ∈ (s.selection.map Prod.snd).filterMap set.switchable? ↔
      b ∈ set.switchable ∧ s.Selects b.name := by
    simp only [List.mem_filterMap, BankSet.switchable?_eq_some_iff]
    constructor
    · rintro ⟨name, selected, switchable, rfl⟩
      exact ⟨switchable, selected⟩
    · rintro ⟨switchable, selected⟩
      exact ⟨_, selected, switchable, rfl⟩
  rw [active, List.mem_append, chosen, BankSet.mem_fixed, BankSet.mem_switchable]
  unfold BankSet.Maps
  cases b.fixed <;> simp

/-- Under an admitted snapshot banks of different names are mapped. -/
theorem MemoryMap.nodup_names_of_valid (valid : ofSnapshot set s = .ok map) :
    (map.active.map fun b => b.name).Nodup := by
  refine List.pairwise_map.mpr (map.disjoint.imp_of_mem ?_)
  intro b c member member' apart same
  have known := mem_banks_of_mem_active valid member
  have known' := mem_banks_of_mem_active valid member'
  obtain rfl := List.inj_on_of_nodup_map set.nodup_names known known' same
  rw [Bank.overlaps_self] at apart
  contradiction

/-- Snapshots that select the same switchable banks map the same banks. -/
theorem BankSet.maps_congr (same : ∀ b ∈ set.switchable, s.Selects b.name ↔ t.Selects b.name)
    (b : LoadedBank) : set.Maps s b ↔ set.Maps t b := by
  refine and_congr_right fun member => ?_
  cases fixed : b.fixed with
  | true => simp
  | false =>
    simp only [Bool.false_eq_true, false_or]
    exact same b (mem_switchable.mpr ⟨member, fixed⟩)

/-- What is mapped is decided up to its order by which banks are. -/
theorem MemoryMap.perm_of_mem_iff (same : ∀ b, b ∈ other.active ↔ b ∈ map.active) :
    other.active.Perm map.active := by
  have distinct : ∀ map : MemoryMap, map.active.Nodup := by
    intro map
    refine map.disjoint.imp fun {b c} apart => ?_
    rintro rfl
    rw [Bank.overlaps_self] at apart
    contradiction
  exact (List.perm_ext_iff_of_nodup (distinct other) (distinct map)).mpr same

end

namespace MapCache

/-- Where an address lies under a snapshot, by the table of the map that is kept or built. -/
def resolve (cache : MapCache) (set : BankSet) (addr : Int) (s : Snapshot) :
    MapCache × Except ConfigError (Option (LoadedBank × Int)) :=
  let (kept, found) := cache.lookup set s
  (kept, found.map fun map => (BankTable.ofMap map).resolve addr)

/-- The banks that are mapped under a snapshot, by the table of the map that is kept or built. -/
def activeBanks (cache : MapCache) (set : BankSet) (s : Snapshot) :
    MapCache × Except ConfigError (List LoadedBank) :=
  let (kept, found) := cache.lookup set s
  (kept, found.map fun map => (BankTable.ofMap map).banks)

/-- A question about what is mapped under a snapshot. -/
inductive Request where
  /-- Where does an address lie? -/
  | resolve (addr : Int) (s : Snapshot)
  /-- Which banks are mapped? -/
  | activeBanks (s : Snapshot)

/-- What is kept when a question has been answered or refused. -/
def request (cache : MapCache) (set : BankSet) : Request → MapCache
  | .resolve addr s => (cache.resolve set addr s).1
  | .activeBanks s => (cache.activeBanks set s).1

/-- What is kept when one question after the other has been answered or refused. -/
def requestAll (cache : MapCache) (set : BankSet) (asked : List Request) : MapCache :=
  asked.foldl (fun cache question => cache.request set question) cache

section

variable {cache : MapCache} {set : BankSet} (sound : cache.Sound set) {s : Snapshot}
  {map : MemoryMap}

include sound

/-- What is kept stays sound when a question is answered or refused. -/
theorem Sound.request (question : Request) : (cache.request set question).Sound set := by
  cases question with
  | resolve addr s => exact sound.lookup s
  | activeBanks s => exact sound.lookup s

/-- What is kept stays sound whatever is asked. -/
theorem Sound.requestAll (asked : List Request) : (cache.requestAll set asked).Sound set := by
  induction asked generalizing cache with
  | nil => exact sound
  | cons question rest ih => exact ih (sound.request question)

/-- Under an admitted snapshot the table that is kept resolves as a new map does. -/
theorem Sound.resolve_of_ok (valid : MemoryMap.ofSnapshot set s = .ok map) (addr : Int) :
    (cache.resolve set addr s).2 =
      .ok ((map.resolve addr).map fun l => (l.bank, (l.offset : Int))) := by
  obtain ⟨found, answer, same, _⟩ := sound.lookup_of_ok valid
  unfold MapCache.resolve
  dsimp only
  rw [answer, ← MemoryMap.resolve_of_perm same addr, ← BankTable.resolve_ofMap]
  rfl

/-- Under an admitted snapshot the table that is kept lists the banks that a new map does. -/
theorem Sound.activeBanks_of_ok (valid : MemoryMap.ofSnapshot set s = .ok map) :
    (cache.activeBanks set s).2 = .ok map.activeBanks := by
  obtain ⟨found, answer, same, _⟩ := sound.lookup_of_ok valid
  have named := MemoryMap.nodup_names_of_valid valid
  have named' := (same.map fun b => b.name).nodup_iff.mpr named
  unfold MapCache.activeBanks
  dsimp only
  rw [answer, ← MemoryMap.activeBanks_of_perm same, ← BankTable.banks_ofMap named']
  rfl

end

/-- An address lies in a bank at an offset: the bank is mapped and contains the wrapped address that
far behind its start. -/
structure LiesAt (set : BankSet) (s : Snapshot) (addr : Int) (b : LoadedBank) (offset : Int) :
    Prop where
  /-- The bank is fixed or selected. -/
  maps : set.Maps s b
  /-- The offset is what the wrapped address is behind the start of the bank. -/
  offset_eq : offset = addr % 0x10000 - b.start
  /-- The bank does not begin behind the address. -/
  start : 0 ≤ offset
  /-- The bank does not end in front of the address. -/
  stop : offset < b.size

section

variable {set : BankSet} {s t : Snapshot} {map other : MemoryMap}

/-- An address lies where the map resolves it to. -/
theorem liesAt_iff (valid : MemoryMap.ofSnapshot set s = .ok map) {addr : Int} {b : LoadedBank}
    {offset : Int} :
    LiesAt set s addr b offset ↔
      (map.resolve addr).map (fun l => (l.bank, (l.offset : Int))) = some (b, offset) := by
  simp only [Option.map_eq_some_iff, Prod.mk.injEq, MemoryMap.resolve_eq_some_iff]
  constructor
  · rintro ⟨maps, located, start, stop⟩
    refine ⟨⟨b, ⟨offset.toNat, by omega⟩⟩,
      ⟨(MemoryMap.mem_active_iff_maps valid).mpr maps, ?_⟩, rfl, ?_⟩
    · unfold Location.address wrapAddress
      dsimp only
      omega
    · dsimp only
      omega
  · rintro ⟨l, ⟨member, address⟩, rfl, rfl⟩
    have below := l.offset.isLt
    unfold Location.address wrapAddress at address
    refine ⟨(MemoryMap.mem_active_iff_maps valid).mp member, ?_, ?_, ?_⟩
    · omega
    · omega
    · omega

/-- Snapshots that select the same switchable banks have one map, up to the order of the banks. -/
theorem perm_of_selects (valid : MemoryMap.ofSnapshot set s = .ok map)
    (valid' : MemoryMap.ofSnapshot set t = .ok other)
    (same : ∀ b ∈ set.switchable, s.Selects b.name ↔ t.Selects b.name) :
    other.active.Perm map.active := by
  refine MemoryMap.perm_of_mem_iff fun b => ?_
  rw [MemoryMap.mem_active_iff_maps valid, MemoryMap.mem_active_iff_maps valid']
  exact (BankSet.maps_congr same b).symm

/-- Whatever was asked before, answered or refused, under an admitted snapshot every address
resolves to the one bank and offset that it lies at, and to nothing where it lies in no mapped bank;
the mapped banks are listed once each in ascending order. The answers are those of a new map, and
those under every other snapshot that selects the same switchable banks. -/
theorem answers_after (set : BankSet) (asked : List Request)
    (valid : MemoryMap.ofSnapshot set s = .ok map) :
    let cache := requestAll {} set asked
    (∀ addr, ∃ answer, (cache.resolve set addr s).2 = .ok answer ∧
        answer = (map.resolve addr).map (fun l => (l.bank, (l.offset : Int))) ∧
        (∀ b offset, answer = some (b, offset) ↔ LiesAt set s addr b offset) ∧
        (answer = none ↔ ∀ b offset, ¬LiesAt set s addr b offset) ∧
        ∀ b offset c offset', LiesAt set s addr b offset → LiesAt set s addr c offset' →
          b = c ∧ offset = offset') ∧
      (∃ banks, (cache.activeBanks set s).2 = .ok banks ∧ banks = map.activeBanks ∧
        (∀ b, b ∈ banks ↔ set.Maps s b) ∧ banks.Pairwise fun b c => b.start < c.start) ∧
      ∀ t other asked', MemoryMap.ofSnapshot set t = .ok other →
        (∀ b ∈ set.switchable, s.Selects b.name ↔ t.Selects b.name) →
        (∀ addr, ((requestAll {} set asked').resolve set addr t).2 = (cache.resolve set addr s).2) ∧
          ((requestAll {} set asked').activeBanks set t).2 = (cache.activeBanks set s).2 := by
  have sound := fun asked => (sound_start set).requestAll asked
  have ascending : map.activeBanks.Pairwise fun b c => b.start < c.start := by
    refine map.pairwise_activeBanks.imp fun {b c} order => ?_
    have nonempty := b.size_pos
    unfold Bank.endAddress at order
    omega
  refine ⟨fun addr => ?_, ?_, ?_⟩
  · have lies : ∀ b offset, LiesAt set s addr b offset ↔
        (map.resolve addr).map (fun l => (l.bank, (l.offset : Int))) = some (b, offset) :=
      fun _ _ => liesAt_iff valid
    refine ⟨_, (sound asked).resolve_of_ok valid addr, rfl, ?_, ?_, ?_⟩
    · exact fun b offset => (lies b offset).symm
    · rw [Option.eq_none_iff_forall_ne_some, Prod.forall]
      exact forall₂_congr fun b offset => not_congr (lies b offset).symm
    · intro b offset c offset' here there
      have both := ((lies b offset).mp here).symm.trans ((lies c offset').mp there)
      exact Prod.mk.inj (Option.some.inj both)
  · refine ⟨_, (sound asked).activeBanks_of_ok valid, rfl, fun b => ?_, ascending⟩
    rw [BankTable.mem_activeBanks, MemoryMap.mem_active_iff_maps valid]
  · intro t other asked' valid' same
    have banks := perm_of_selects valid valid' same
    refine ⟨fun addr => ?_, ?_⟩
    · rw [(sound asked').resolve_of_ok valid' addr, (sound asked).resolve_of_ok valid addr,
        MemoryMap.resolve_of_perm banks addr]
    · rw [(sound asked').activeBanks_of_ok valid', (sound asked).activeBanks_of_ok valid,
        MemoryMap.activeBanks_of_perm banks]

end

/-! ## A bank that is selected behind refused questions -/

/-- A fixed bank of the last sixteen addresses. -/
def lastBank : Bank where
  name := "last"
  start := 0xFFF0
  size := 16
  file := ⟨.relative, ["image"]⟩
  cdl := ⟨.relative, ["log"]⟩
  fileOffset := 32
  cdlOffset := 32
  fixed := true
  name_ne := by decide
  size_power := ⟨4, rfl⟩
  size_dvd := by decide
  end_le := by decide

/-- A switchable bank of sixteen addresses. -/
def lowBank : Bank :=
  { lastBank with
    name := "low", start := 0x8000, fixed := false, name_ne := by decide
    size_dvd := by decide, end_le := by decide }

/-- Another bank that can be mapped in place of that one. -/
def highBank : Bank := { lowBank with name := "high", name_ne := by decide }

/-- The layout of the three banks. -/
def tradedSet : BankSet := ⟨[⟨lowBank, none⟩, ⟨lastBank, none⟩, ⟨highBank, none⟩], by decide⟩

/-- A snapshot that selects a switchable bank and lists the fixed bank as well. -/
def verboseSnapshot : Snapshot := ⟨[(0xFFF0, "last"), (0x8000, "high")], 7⟩

/-- What a snapshot that selects the same bank maps. -/
def tradedMap : MemoryMap := ⟨[⟨lastBank, none⟩, ⟨highBank, none⟩], by decide⟩

/-- Questions about an unknown bank and about the other switchable bank. -/
def tradedRequests : List Request :=
  [.resolve 0 ⟨[(0, "none")], 0⟩, .activeBanks ⟨[(0x8000, "low")], 0⟩]

/-- Behind these questions the last address lies in the fixed bank, and it does so under the
snapshot that selects the same bank without listing the fixed one. -/
theorem answers_after_traded :
    let cache := requestAll {} tradedSet tradedRequests
    (cache.resolve tradedSet (-1) verboseSnapshot).2 = .ok (some (⟨lastBank, none⟩, 15)) ∧
      (cache.resolve tradedSet (-1) ⟨[(0x8000, "high")], 0⟩).2 =
        .ok (some (⟨lastBank, none⟩, 15)) := by
  have valid : MemoryMap.ofSnapshot tradedSet verboseSnapshot = .ok tradedMap := rfl
  have valid' : MemoryMap.ofSnapshot tradedSet ⟨[(0x8000, "high")], 0⟩ = .ok tradedMap := rfl
  obtain ⟨resolved, _, alike⟩ := answers_after tradedSet tradedRequests valid
  obtain ⟨answer, answered, _, lies, _⟩ := resolved (-1)
  have inside : LiesAt tradedSet verboseSnapshot (-1) ⟨lastBank, none⟩ 15 :=
    ⟨⟨List.mem_cons_of_mem _ List.mem_cons_self, .inl rfl⟩, by decide, by decide, by decide⟩
  rw [(lies _ _).mpr inside] at answered
  have same := (alike _ _ tradedRequests valid' (by decide)).1 (-1)
  exact ⟨answered, same.trans answered⟩

end MapCache

end BankTrace
